import CallReplacement.Proofs.Expr.Induction
import CallReplacement.Proofs.JavaScript.Spine
import CallReplacement.Script.Render

/-!
The tree that the text of an expression is read as. It is the expression's own tree: types and
sequences of one leave no trace, the empty sequence is `undefined`, and the sign of a number is a
negation. Two things are as the text has them. A chain of bindings is one function that declares
them all; and if the constructor of an instance is reached through a call, the `new` applies to
that call.
-/

namespace CallReplacement

open JavaScript (Tree Mark Spine Suffix Level)

def UnaryOp.mark : UnaryOp → Mark
  | .negate => .minus
  | .not => .not

def BinaryOp.mark : BinaryOp → Mark
  | .add => .plus
  | .subtract => .minus
  | .multiply => .star
  | .divide => .slash
  | .modulus => .percent
  | .equal => .same
  | .notEqual => .different
  | .less => .less
  | .lessOrEqual => .lessOrEqual
  | .greater => .greater
  | .greaterOrEqual => .greaterOrEqual

def LogicalOp.mark : LogicalOp → Mark
  | .and => .and
  | .or => .or

/-- The text of a finite number without its sign. -/
def Decimal.magnitude (x : Float) : String :=
  if isNegative x then String.ofList ((ofFinite x).toList.drop 1) else ofFinite x

namespace JavaScript

/-- A number with a sign is the negation of one without. -/
def Tree.signed (isNegative : Bool) (magnitude : Tree) : Tree :=
  if isNegative then .unary .minus magnitude else magnitude

def Tree.ofFloat (value : Float) : Tree :=
  if value.isNaN then .name "NaN"
  else if value.isInf then .signed (!decide (value > 0)) (.name "Infinity")
  else .signed (Decimal.isNegative value) (.number (Decimal.magnitude value))

def Tree.ofLiteral : Literal → Tree
  | .null => .constant "null"
  | .unit => .name "undefined"
  | .bool true => .constant "true"
  | .bool false => .constant "false"
  | .int value => .signed (value < 0) (.number (toString value.toInt.natAbs))
  | .float value => .ofFloat value
  | .string value => .string value
  | .char value => .string (String.singleton value)

/-- The access to a member: by its name if that is an identifier, else by a string. -/
def Suffix.member (name : String) : Suffix :=
  if isIdentifier name then .field name else .index (.string name)

/-- A phrase that is called or constructed. -/
def Spine.applied (style : CallStyle) (callee : Spine) (args : List Tree) : Spine :=
  match style with
  | .direct => callee.before (.args args)
  | .construct => callee.renewed.before (.args args)

/-- A function that is called on the spot. -/
def Spine.block (constants : List (String × Tree)) (result : Tree) : Spine :=
  (Spine.ofTree (.routine [] constants result)).before (.args [])

def Spine.sequence : List Spine → Spine
  | [] => .ofTree (.name "undefined")
  | [single] => single
  | parts => .ofTree (.sequence (parts.map Spine.tree))

end JavaScript

/-- What the text of an expression, or the lines of the block that it ends, is read as. -/
structure BlockReading where
  /-- The constants that the lines declare. -/
  constants : List (String × Tree)
  spine : Spine

namespace BlockReading

def of (spine : Spine) : BlockReading := ⟨[], spine⟩

def ofTree (t : Tree) : BlockReading := of (.ofTree t)

def tree (r : BlockReading) : Tree := r.spine.tree

end BlockReading

namespace Expr

/-- A callee in parentheses is a phrase of its own. -/
def calleeSpine (style : CallStyle) (callee : Expr) (spine : Spine) : Spine :=
  if style = .construct ∧ callee.isCall then .ofTree spine.tree else spine

section
variable (imports : Imports)

mutual

/-- What an expression is read as in its place. Raw text has no reading of its own. -/
def reading (place : Place) : Expr → BlockReading
  | .bind _ binding value body =>
      let rest := reading .rest body
      let constants := (binding.name, (reading .operand value).tree) :: rest.constants
      match place with
      | .operand => .of (.block constants rest.tree)
      | .rest => ⟨constants, rest.spine⟩
  | .literal _ value => .ofTree (.ofLiteral value)
  | .ident _ binding => .ofTree (.name binding.name)
  | .imported _ source => .ofTree (.name (imports.nameOf source))
  | .field _ target name => .of ((reading .operand target).spine.before (.member name))
  | .index _ target key =>
      .of ((reading .operand target).spine.before (.index (reading .operand key).tree))
  | .call _ style callee args =>
      .of (.applied style (calleeSpine style callee (reading .operand callee).spine)
        ((readings args).map Spine.tree))
  | .object _ fields => .ofTree (.object (fieldReadings fields))
  | .cast _ operand => .of (reading .operand operand).spine
  | .raw _ template _ => .ofTree (.constant template)
  | .unary _ op operand => .ofTree (.unary op.mark (reading .operand operand).tree)
  | .binary _ op left right =>
      .ofTree (.binary op.mark (reading .operand left).tree (reading .operand right).tree)
  | .logical _ op left right =>
      .ofTree (.binary op.mark (reading .operand left).tree (reading .operand right).tree)
  | .lambda _ params body =>
      .ofTree (.arrow (params.map Binding.name) (reading .operand body).tree)
  | .conditional _ guard yes no =>
      .ofTree (.conditional (reading .operand guard).tree (reading .operand yes).tree
        (reading .operand no).tree)
  | .sequence _ exprs => .of (.sequence (readings exprs))

def readings : List Expr → List Spine
  | [] => []
  | e :: rest => (reading .operand e).spine :: readings rest

def fieldReadings : List (String × Expr) → List (String × Tree)
  | [] => []
  | (name, e) :: rest => (name, (reading .operand e).tree) :: fieldReadings rest

end

def spine (e : Expr) : Spine := (e.reading imports .operand).spine

/-- The tree that the text of the expression is read as. -/
def tree (e : Expr) : Tree := (e.spine imports).tree

variable {imports}

theorem readings_eq (exprs : List Expr) : readings imports exprs = exprs.map (spine imports) := by
  induction exprs with
  | nil => rfl
  | cons e rest ih => rw [readings, ih, List.map_cons, spine]

theorem readings_tree (exprs : List Expr) :
    (readings imports exprs).map Spine.tree = exprs.map (tree imports) := by
  rw [readings_eq, List.map_map]
  rfl

theorem fieldReadings_eq (fields : List (String × Expr)) :
    fieldReadings imports fields = fields.map fun f => (f.1, tree imports f.2) := by
  induction fields with
  | nil => rfl
  | cons field rest ih => rw [fieldReadings, ih, List.map_cons]; rfl

theorem balanced_spine (e : Expr) : (e.spine imports).Balanced := by
  induction e using induction_children with
  | step e ih =>
    cases e with
    | field note target name => exact (ih target (by simp [children])).before _
    | index note target key => exact (ih target (by simp [children])).before _
    | call note style callee args =>
        have inner : (calleeSpine style callee (callee.spine imports)).Balanced := by
          rw [calleeSpine]
          split
          · exact Spine.balanced_ofTree _
          · exact ih callee (by simp [children])
        cases style with
        | direct => exact inner.before _
        | construct => exact inner.construct _
    | cast note operand => exact ih operand (by simp [children])
    | sequence note exprs =>
        cases exprs with
        | nil => exact Spine.balanced_ofTree _
        | cons first rest =>
            cases rest with
            | nil => exact ih first (by simp [children])
            | cons second others => exact Spine.balanced_ofTree _
    | bind => exact (Spine.balanced_ofTree _).before _
    | literal | ident | imported | object | raw | unary | binary | logical | lambda
    | conditional => exact Spine.balanced_ofTree _

/-! The trees of the nodes by those of their parts. -/

theorem tree_field (note : Note) (target : Expr) (name : String) :
    (field note target name).tree imports =
      if isIdentifier name then .field (target.tree imports) name
      else .index (target.tree imports) (.string name) := by
  have same : (field note target name).spine imports =
      (target.spine imports).before (.member name) := rfl
  rw [tree, same, Suffix.member]
  split
  · exact Spine.tree_before_field _ _
  · exact Spine.tree_before_index _ _

theorem tree_index (note : Note) (target key : Expr) :
    (index note target key).tree imports = .index (target.tree imports) (key.tree imports) :=
  Spine.tree_before_index _ _

theorem tree_call (note : Note) (callee : Expr) (args : List Expr) :
    (call note .direct callee args).tree imports =
      .call (callee.tree imports) (args.map (tree imports)) := by
  have same : (call note .direct callee args).spine imports =
      (callee.spine imports).before (.args ((readings imports args).map Spine.tree)) := by
    simp [spine, reading, BlockReading.of, Spine.applied, calleeSpine]
  rw [tree, same, readings_tree]
  exact Spine.tree_before_args (balanced_spine callee) _

theorem tree_object (note : Note) (fields : List (String × Expr)) :
    (object note fields).tree imports = .object (fields.map fun f => (f.1, f.2.tree imports)) := by
  rw [← fieldReadings_eq]
  rfl

section
variable (note : Note) (first second third : Expr)

theorem tree_cast : (cast note first).tree imports = first.tree imports := rfl

theorem tree_unary (op : UnaryOp) :
    (unary note op first).tree imports = .unary op.mark (first.tree imports) := rfl

theorem tree_binary (op : BinaryOp) : (binary note op first second).tree imports =
    .binary op.mark (first.tree imports) (second.tree imports) := rfl

theorem tree_logical (op : LogicalOp) : (logical note op first second).tree imports =
    .binary op.mark (first.tree imports) (second.tree imports) := rfl

theorem tree_conditional : (conditional note first second third).tree imports =
    .conditional (first.tree imports) (second.tree imports) (third.tree imports) := rfl

theorem tree_lambda (params : List Binding) : (lambda note params first).tree imports =
    .arrow (params.map Binding.name) (first.tree imports) := rfl

theorem tree_single : (sequence note [first]).tree imports = first.tree imports := rfl

theorem tree_sequence (others : List Expr) :
    (sequence note (first :: second :: others)).tree imports =
      .sequence ((first :: second :: others).map (tree imports)) := by
  rw [← readings_tree]
  rfl

end

/-! A binding is the call of a function, which declares the constants of its whole chain. -/

section
variable (note : Note) (binding : Binding) (value body : Expr)

theorem tree_block : (bind note binding value body).tree imports =
    .call (.routine [] ((bind note binding value body).reading imports .rest).constants
      ((bind note binding value body).reading imports .rest).tree) [] := rfl

theorem constants_bind : ((bind note binding value body).reading imports .rest).constants =
    (binding.name, value.tree imports) :: (body.reading imports .rest).constants := rfl

theorem result_bind : ((bind note binding value body).reading imports .rest).tree =
    (body.reading imports .rest).tree := rfl

end

end

mutual

/-- The tree of an expression, with operations, conditionals, sequences, plain calls, accesses and
casts taken apart node by node. -/
def operatorTree : Expr → Tree
  | .literal _ value => .ofLiteral value
  | .ident _ binding => .name binding.name
  | .field _ target name =>
      if isIdentifier name then .field (operatorTree target) name
      else .index (operatorTree target) (.string name)
  | .index _ target key => .index (operatorTree target) (operatorTree key)
  | .call _ .direct callee args => .call (operatorTree callee) (operatorTrees args)
  | .cast _ operand => operatorTree operand
  | .unary _ op operand => .unary op.mark (operatorTree operand)
  | .binary _ op left right => .binary op.mark (operatorTree left) (operatorTree right)
  | .logical _ op left right => .binary op.mark (operatorTree left) (operatorTree right)
  | .conditional _ guard yes no =>
      .conditional (operatorTree guard) (operatorTree yes) (operatorTree no)
  | .sequence _ [] => .name "undefined"
  | .sequence _ [single] => operatorTree single
  | .sequence _ exprs => .sequence (operatorTrees exprs)
  | e => e.tree {}

def operatorTrees : List Expr → List Tree
  | [] => []
  | e :: rest => operatorTree e :: operatorTrees rest

end

theorem operatorTrees_eq (exprs : List Expr) (each : ∀ e ∈ exprs, e.operatorTree = e.tree {}) :
    operatorTrees exprs = exprs.map (tree {}) := by
  induction exprs with
  | nil => rfl
  | cons e rest ih =>
      have tail := ih fun other member => each other (List.mem_cons_of_mem _ member)
      rw [operatorTrees, each e List.mem_cons_self, tail, List.map_cons]

theorem operatorTree_eq (e : Expr) : e.operatorTree = e.tree {} := by
  induction e using induction_children with
  | step e ih =>
    cases e with
    | literal | ident | imported | object | raw | lambda | bind => rfl
    | field note target name =>
        rw [operatorTree, ih target (by simp [children]), tree_field]
    | index note target key =>
        rw [operatorTree, ih target (by simp [children]), ih key (by simp [children]), tree_index]
    | call note style callee args =>
        cases style with
        | direct =>
            have others := operatorTrees_eq args fun e member => ih e (List.mem_cons_of_mem _ member)
            rw [operatorTree, ih callee List.mem_cons_self, others, tree_call]
        | construct => simp only [operatorTree]
    | cast note operand =>
        rw [operatorTree, ih operand (by simp [children]), tree_cast]
    | unary note op operand =>
        rw [operatorTree, ih operand (by simp [children]), tree_unary]
    | binary note op left right =>
        rw [operatorTree, ih left (by simp [children]), ih right (by simp [children]), tree_binary]
    | logical note op left right =>
        rw [operatorTree, ih left (by simp [children]), ih right (by simp [children]),
          tree_logical]
    | conditional note guard yes no =>
        rw [operatorTree, ih guard (by simp [children]), ih yes (by simp [children]),
          ih no (by simp [children]), tree_conditional]
    | sequence note exprs =>
        cases exprs with
        | nil => rfl
        | cons first rest =>
            cases rest with
            | nil => rw [operatorTree, ih first (by simp [children]), tree_single]
            | cons second others =>
                have row := operatorTrees_eq (first :: second :: others) ih
                rw [tree_sequence, ← row]
                rfl

end Expr
end CallReplacement
