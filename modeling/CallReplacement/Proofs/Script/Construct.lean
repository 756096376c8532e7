import CallReplacement.Proofs.Script.ReadBack

/-!
Constructions in texts. The first argument list behind a `new` that stands in no parentheses belongs
to that `new`. A callee that is a call stands in parentheses, so its argument lists are its own; a
callee that only begins with a call does not, and gives the argument list of that call to the `new`.
The text of a construction then calls what it should construct.
-/

namespace CallReplacement

open JavaScript

namespace JavaScript.Spine

/-- Whether some argument list is left by the `new` in front. -/
def Exposed (s : Spine) : Prop := s.news < s.suffixes.countP Suffix.isArgs

theorem not_exposed_ofTree (t : Tree) : ¬ (ofTree t).Exposed := Nat.not_lt_zero _

theorem exposed_before_iff {suffix : Suffix} (noArgs : suffix.isArgs = false) (s : Spine) :
    (s.before suffix).Exposed ↔ s.Exposed := by
  simp [Exposed, before, noArgs]

theorem Balanced.exposed_before {s : Spine} (balanced : s.Balanced) (parts : List Tree) :
    (s.before (.args parts)).Exposed := by
  have one : [Suffix.args parts].countP Suffix.isArgs = 1 := rfl
  simp only [Balanced, Exposed, Spine.before, List.countP_append, one] at *
  omega

theorem exposed_construct_iff (s : Spine) (parts : List Tree) :
    (s.renewed.before (.args parts)).Exposed ↔ s.Exposed := by
  simp [Exposed, before, renewed, Suffix.isArgs]

-- One more `new` waits through all suffixes, if there is one for each argument list without it.
theorem foldl_onto_succ {suffixes : List Suffix} {waiting : Nat}
    (enough : suffixes.countP Suffix.isArgs ≤ waiting) (t : Tree) :
    suffixes.foldl Suffix.onto (waiting + 1, t) =
      ((suffixes.foldl Suffix.onto (waiting, t)).1 + 1,
        (suffixes.foldl Suffix.onto (waiting, t)).2) := by
  induction suffixes generalizing waiting t with
  | nil => rfl
  | cons suffix others ih =>
      cases suffix with
      | field name => exact ih (by simpa [Suffix.isArgs] using enough) _
      | index key => exact ih (by simpa [Suffix.isArgs] using enough) _
      | args parts =>
          have counted : others.countP Suffix.isArgs + 1 ≤ waiting := by
            rwa [List.countP_cons_of_pos rfl] at enough
          cases waiting with
          | zero => omega
          | succ waiting => exact ih (by omega) _

theorem tree_construct_of_not_exposed {s : Spine} (closed : ¬ s.Exposed) (parts : List Tree) :
    (s.renewed.before (.args parts)).tree = .construct s.tree parts := by
  have waits := foldl_onto_succ (Nat.not_lt.mp closed) s.base
  rw [tree_before, renewed, waits]
  rfl

theorem tree_construct_of_exposed {s : Spine} (exposed : s.Exposed) (parts : List Tree) :
    ∃ inner, (s.renewed.before (.args parts)).tree = .call inner parts := by
  have none := waiting_foldl s.suffixes (s.news + 1) s.base
  rw [Nat.sub_eq_zero_of_le exposed] at none
  rw [tree_before, renewed]
  generalize s.suffixes.foldl Suffix.onto (s.news + 1, s.base) = phrase at none ⊢
  obtain ⟨waiting, t⟩ := phrase
  cases none
  exact ⟨t, rfl⟩

end JavaScript.Spine

namespace Expr

mutual

/-- Whether the text of an expression has, outside of parentheses, an argument list that no `new` of
the expression takes. -/
def exposesCall : Expr → Bool
  | .call _ .direct _ _ | .bind .. => true
  | .call _ .construct callee _ => !callee.isCall && exposesCall callee
  | .field _ target _ | .index _ target _ | .cast _ target => exposesCall target
  | .sequence _ exprs => aloneExposesCall exprs
  | _ => false

def aloneExposesCall : List Expr → Bool
  | [single] => exposesCall single
  | _ => false

end

/-- Whether the argument list of a construction is left for its `new`. -/
def KeepsCallee : Expr → Prop
  | .call _ .construct callee _ => callee.isCall ∨ callee.exposesCall = false
  | _ => True

section
variable {imports : Imports}

theorem exposed_calleeSpine_iff (callee : Expr) :
    (calleeSpine .construct callee (callee.spine imports)).Exposed ↔
      callee.isCall = false ∧ (callee.spine imports).Exposed := by
  rw [calleeSpine]
  split
  · next wrapped => simp [wrapped.2, Spine.not_exposed_ofTree]
  · next bare =>
    have noCall : callee.isCall = false := by simpa using bare
    simp [noCall]

theorem exposed_spine_iff (e : Expr) : (e.spine imports).Exposed ↔ e.exposesCall := by
  induction e using induction_children with
  | step e ih =>
    have primary (t : Tree) : (Spine.ofTree t).Exposed ↔ false = true := by
      simp [Spine.not_exposed_ofTree]
    cases e with
    | field note target name =>
        have noArgs : (Suffix.member name).isArgs = false := by
          rw [Suffix.member]
          split <;> rfl
        exact (Spine.exposed_before_iff noArgs _).trans (ih target (by simp [children]))
    | index note target key =>
        exact (Spine.exposed_before_iff rfl _).trans (ih target (by simp [children]))
    | call note style callee args =>
        cases style with
        | direct =>
            have inner : calleeSpine .direct callee (callee.spine imports) = callee.spine imports := by
              simp [calleeSpine]
            have balanced : (callee.spine imports).Balanced := balanced_spine callee
            have exposed := balanced.exposed_before ((readings imports args).map Spine.tree)
            rw [← inner] at exposed
            exact iff_of_true exposed rfl
        | construct =>
            refine (Spine.exposed_construct_iff _ _).trans ((exposed_calleeSpine_iff callee).trans ?_)
            rw [ih callee List.mem_cons_self, ← Bool.not_eq_true', ← Bool.and_eq_true]
            rfl
    | cast note operand => exact ih operand (by simp [children])
    | sequence note exprs =>
        cases exprs with
        | nil => exact primary _
        | cons first rest =>
            cases rest with
            | nil => exact ih first (by simp [children])
            | cons second others => exact primary _
    | bind => exact iff_of_true ((Spine.balanced_ofTree _).exposed_before _) rfl
    | literal | ident | imported | object | raw | unary | binary | logical | lambda
    | conditional => exact primary _

theorem tree_construct (note : Note) (callee : Expr) (args : List Expr) :
    (call note .construct callee args).tree imports =
      ((calleeSpine .construct callee (callee.spine imports)).renewed.before
        (.args (args.map (tree imports)))).tree := by
  rw [← readings_tree]
  rfl

-- The arguments are those of the `new`.
theorem tree_construct_of_keeps {note : Note} {callee : Expr} {args : List Expr}
    (keeps : (call note .construct callee args).KeepsCallee) :
    (call note .construct callee args).tree imports =
      .construct (callee.tree imports) (args.map (tree imports)) := by
  have closed : ¬ (calleeSpine .construct callee (callee.spine imports)).Exposed := by
    rw [exposed_calleeSpine_iff, exposed_spine_iff]
    rintro ⟨noCall, exposes⟩
    rcases keeps with isCall | closed
    · exact Bool.noConfusion (isCall.symm.trans noCall)
    · exact Bool.noConfusion (exposes.symm.trans closed)
  have same : (calleeSpine .construct callee (callee.spine imports)).tree = callee.tree imports := by
    rw [calleeSpine]
    split <;> rfl
  rw [tree_construct, Spine.tree_construct_of_not_exposed closed, same]

-- The `new` has taken others, so the arguments are those of a plain call.
theorem tree_construct_of_exposes {note : Note} {callee : Expr} {args : List Expr}
    (lost : ¬ (call note .construct callee args).KeepsCallee) (imports : Imports) :
    ∃ inner, (call note .construct callee args).tree imports =
      .call inner (args.map (tree imports)) := by
  obtain ⟨noCall, exposes⟩ : ¬ callee.isCall ∧ ¬ callee.exposesCall = false := not_or.mp lost
  have exposed : (calleeSpine .construct callee (callee.spine imports)).Exposed := by
    rw [exposed_calleeSpine_iff, exposed_spine_iff]
    exact ⟨Bool.not_eq_true _ ▸ noCall, Bool.not_eq_false _ ▸ exposes⟩
  rw [tree_construct]
  exact Spine.tree_construct_of_exposed exposed _

end
end Expr

/-- A call of a function that declares a constant. If the rest is such a call already, the function
is the same. -/
def JavaScript.Tree.declaring (name : String) (value : Tree) (chained : Bool) (rest : Tree) : Tree :=
  match chained, rest with
  | true, .call (.routine [] constants result) [] =>
      .call (.routine [] ((name, value) :: constants) result) []
  | _, result => .call (.routine [] [(name, value)] result) []

theorem JavaScript.Tree.exists_declaring (name : String) (value : Tree) (chained : Bool)
    (rest : Tree) : ∃ constants result, Tree.declaring name value chained rest =
      .call (.routine [] constants result) [] := by
  unfold declaring
  split <;> exact ⟨_, _, rfl⟩

namespace Expr

section
variable (imports : Imports)

mutual

/-- The tree that an expression stands for, node by node, whatever its text is read as. -/
def ownTree : Expr → Tree
  | .literal _ value => .ofLiteral value
  | .ident _ binding => .name binding.name
  | .imported _ source => .name (imports.nameOf source)
  | .field _ target name =>
      if isIdentifier name then .field (ownTree target) name
      else .index (ownTree target) (.string name)
  | .index _ target key => .index (ownTree target) (ownTree key)
  | .call _ .direct callee args => .call (ownTree callee) (ownTrees args)
  | .call _ .construct callee args => .construct (ownTree callee) (ownTrees args)
  | .object _ fields => .object (ownFields fields)
  | .cast _ operand => ownTree operand
  | .raw _ template _ => .constant template
  | .unary _ op operand => .unary op.mark (ownTree operand)
  | .binary _ op left right => .binary op.mark (ownTree left) (ownTree right)
  | .logical _ op left right => .binary op.mark (ownTree left) (ownTree right)
  | .lambda _ params body => .arrow (params.map Binding.name) (ownTree body)
  | .bind _ binding value body =>
      .declaring binding.name (ownTree value) body.isBind (ownTree body)
  | .conditional _ guard yes no => .conditional (ownTree guard) (ownTree yes) (ownTree no)
  | .sequence _ [] => .name "undefined"
  | .sequence _ [single] => ownTree single
  | .sequence _ exprs => .sequence (ownTrees exprs)

def ownTrees : List Expr → List Tree
  | [] => []
  | e :: rest => ownTree e :: ownTrees rest

def ownFields : List (String × Expr) → List (String × Tree)
  | [] => []
  | (name, e) :: rest => (name, ownTree e) :: ownFields rest

end

variable {imports}

theorem ownTrees_eq (exprs : List Expr) : ownTrees imports exprs = exprs.map (ownTree imports) := by
  induction exprs with
  | nil => rfl
  | cons e rest ih => rw [ownTrees, ih, List.map_cons]

theorem ownFields_eq (fields : List (String × Expr)) :
    ownFields imports fields = fields.map fun f => (f.1, ownTree imports f.2) := by
  induction fields with
  | nil => rfl
  | cons field rest ih => rw [ownFields, ih, List.map_cons]

theorem tree_bind (note : Note) (binding : Binding) (value body : Expr) :
    (bind note binding value body).tree imports =
      .declaring binding.name (value.tree imports) body.isBind (body.tree imports) := by
  cases body <;> rfl

-- Both as it is read and as it stands for itself, a binding is a call of a function.
theorem exists_of_isBind {e : Expr} (isBind : e.isBind) (imports : Imports) :
    (∃ constants result, e.tree imports = .call (.routine [] constants result) []) ∧
      ∃ constants result, e.ownTree imports = .call (.routine [] constants result) [] := by
  cases e with
  | bind note binding value body =>
      rw [tree_bind, ownTree]
      exact ⟨Tree.exists_declaring _ _ _ _, Tree.exists_declaring _ _ _ _⟩
  | _ => cases isBind

theorem declaring_eq_iff (name : String) (value value' : Tree) (body : Expr) :
    Tree.declaring name value body.isBind (body.tree imports) =
        .declaring name value' body.isBind (body.ownTree imports) ↔
      value = value' ∧ body.tree imports = body.ownTree imports := by
  cases isBind : body.isBind with
  | false => simp [Tree.declaring]
  | true =>
      obtain ⟨⟨constants, result, same⟩, constants', result', same'⟩ := exists_of_isBind isBind imports
      rw [same, same']
      simp [Tree.declaring, and_assoc]

/-- A node is read as what it stands for exactly if its parts are and it keeps its callee. -/
theorem tree_eq_ownTree_node_iff {A : Alphabet} {e : Expr} (node : e.ReadableNode A imports) :
    e.tree imports = e.ownTree imports ↔
      e.KeepsCallee ∧ ∀ c ∈ e.children, c.tree imports = c.ownTree imports := by
  have parts (exprs : List Expr) :
      exprs.map (tree imports) = exprs.map (ownTree imports) ↔
        ∀ c ∈ exprs, c.tree imports = c.ownTree imports := List.map_inj_left
  cases e with
  | raw => exact node.elim
  | literal | ident | imported => exact iff_of_true rfl ⟨trivial, by simp [children]⟩
  | field note target name =>
      rw [tree_field, ownTree]
      split <;> simp [KeepsCallee, children]
  | index note target key =>
      rw [tree_index, ownTree]
      simp [KeepsCallee, children]
  | call note style callee args =>
      cases style with
      | direct =>
          rw [tree_call, ownTree, ownTrees_eq, Tree.call.injEq, parts]
          simp [KeepsCallee, children]
      | construct =>
          by_cases keeps : (call note .construct callee args).KeepsCallee
          · rw [tree_construct_of_keeps keeps, ownTree, ownTrees_eq, Tree.construct.injEq, parts]
            simp [keeps, children]
          · obtain ⟨inner, lost⟩ := tree_construct_of_exposes keeps imports
            rw [lost, ownTree]
            simp [keeps]
  | object note fields =>
      rw [tree_object, ownTree, ownFields_eq, Tree.object.injEq, List.map_inj_left]
      simpa [KeepsCallee, children] using forall_comm
  | cast note operand =>
      rw [tree_cast, ownTree]
      simp [KeepsCallee, children]
  | unary note op operand =>
      rw [tree_unary, ownTree]
      simp [KeepsCallee, children]
  | binary note op left right =>
      rw [tree_binary, ownTree]
      simp [KeepsCallee, children]
  | logical note op left right =>
      rw [tree_logical, ownTree]
      simp [KeepsCallee, children]
  | lambda note params body =>
      rw [tree_lambda, ownTree]
      simp [KeepsCallee, children]
  | bind note binding value body =>
      rw [tree_bind, ownTree, declaring_eq_iff]
      simp [KeepsCallee, children]
  | conditional note guard yes no =>
      rw [tree_conditional, ownTree]
      simp [KeepsCallee, children]
  | sequence note exprs =>
      cases exprs with
      | nil => exact iff_of_true rfl ⟨trivial, by simp [children]⟩
      | cons first rest =>
          cases rest with
          | nil =>
              rw [tree_single, ownTree]
              simp [KeepsCallee, children]
          | cons second others =>
              have own : (sequence note (first :: second :: others)).ownTree imports =
                  .sequence ((first :: second :: others).map (ownTree imports)) := by
                rw [← ownTrees_eq]
                rfl
              rw [tree_sequence, own, Tree.sequence.injEq, parts]
              simp [KeepsCallee, children]

/-- The text of a readable expression is read as what it stands for exactly if all constructions
in it keep their callees. -/
theorem tree_eq_ownTree_iff {A : Alphabet} {e : Expr} (readable : e.Readable A imports) :
    e.tree imports = e.ownTree imports ↔ ∀ s ∈ e.subterms, s.KeepsCallee := by
  induction e using induction_children with
  | step e ih =>
    obtain ⟨node, parts⟩ := (readable_iff e).mp readable
    rw [tree_eq_ownTree_node_iff node, forall_subterms_iff]
    exact and_congr_right' (forall₂_congr fun c member => ih c member (parts c member))

/-- Whether the node is an identifier, an access, a call, a cast, a sequence of one or a binding. -/
def CalleeNode (A : Alphabet) : Expr → Prop
  | .ident _ binding | .bind _ binding _ _ => A.IsName binding.name
  | .field .. | .index .. | .call .. | .cast .. | .sequence _ [_] => True
  | _ => False

/-- Whether an expression is built, to any depth, from such nodes only. -/
def CalleesOnly (A : Alphabet) (e : Expr) : Prop := ∀ s ∈ e.subterms, s.CalleeNode A

theorem exists_of_calleeNode {A : Alphabet} {note : Note} {exprs : List Expr}
    (node : (sequence note exprs).CalleeNode A) : ∃ single, exprs = [single] := by
  cases exprs with
  | nil => exact node.elim
  | cons single rest =>
      cases rest with
      | nil => exact ⟨single, rfl⟩
      | cons => exact node.elim

theorem calleesOnly_iff {A : Alphabet} (e : Expr) :
    e.CalleesOnly A ↔ e.CalleeNode A ∧ ∀ c ∈ e.children, c.CalleesOnly A :=
  forall_subterms_iff (CalleeNode A) e

theorem CalleesOnly.isNumber_tree {A : Alphabet} {e : Expr} (callees : e.CalleesOnly A) :
    (e.tree imports).isNumber = false := by
  induction e using induction_children with
  | step e ih =>
    obtain ⟨node, parts⟩ := (calleesOnly_iff e).mp callees
    cases e with
    | ident => rfl
    | field note target name =>
        rw [tree_field]
        split <;> rfl
    | index note target key =>
        rw [tree_index]
        rfl
    | call note style callee args =>
        cases style with
        | direct =>
            rw [tree_call]
            rfl
        | construct =>
            by_cases keeps : (call note .construct callee args).KeepsCallee
            · rw [tree_construct_of_keeps keeps]
              rfl
            · obtain ⟨inner, lost⟩ := tree_construct_of_exposes keeps imports
              rw [lost]
              rfl
    | cast note operand =>
        exact ih operand (by simp [children]) (parts operand (by simp [children]))
    | bind note binding value body =>
        obtain ⟨_, _, called⟩ := Tree.exists_declaring binding.name (value.tree imports) body.isBind
          (body.tree imports)
        rw [tree_bind, called]
        rfl
    | sequence note exprs =>
        obtain ⟨single, rfl⟩ := exists_of_calleeNode node
        exact ih single (by simp [children]) (parts single (by simp [children]))
    | literal | imported | object | raw | unary | binary | logical | lambda | conditional =>
        exact node.elim

theorem CalleesOnly.readable {A : Alphabet} {e : Expr} (callees : e.CalleesOnly A) :
    e.Readable A imports := by
  induction e using induction_children with
  | step e ih =>
    obtain ⟨node, parts⟩ := (calleesOnly_iff e).mp callees
    refine (readable_iff e).mpr ⟨?_, fun c member => ih c member (parts c member)⟩
    cases e with
    | ident | bind => exact node
    | field note target name =>
        exact fun _ => .inr (parts target (by simp [children])).isNumber_tree
    | index | call | cast | sequence => trivial
    | literal | imported | object | raw | unary | binary | logical | lambda | conditional =>
        exact node.elim

/-- The text of a construction has one reading. It constructs the callee with the arguments, all of
them as they stand for themselves, exactly if each construction in it keeps its callee: the callee
is a call, or it shows no call outside of parentheses. If the whole one does not, its text is read
as a plain call. -/
theorem construct_reads_iff {A : Alphabet} (indent : Indent) (depth : Nat) (note : Note)
    (callee : Expr) (args : List Expr) (readable : callee.Readable A imports)
    (parts : ∀ e ∈ args, e.Readable A imports) :
    ∃ ts, lex A ((call note .construct callee args).render indent imports depth).text.toList =
        some ts ∧
      (∀ t, Reads .comma ts t ↔ t = (call note .construct callee args).tree imports) ∧
      ((call note .construct callee args).tree imports =
          .construct (callee.ownTree imports) (args.map (ownTree imports)) ↔
        ∀ s ∈ (call note .construct callee args).subterms, s.KeepsCallee) ∧
      (¬ (call note .construct callee args).KeepsCallee →
        ∃ inner, (call note .construct callee args).tree imports =
          .call inner (args.map (tree imports))) := by
  have whole : (call note .construct callee args).Readable A imports := by
    rw [readable_iff]
    exact ⟨trivial, List.forall_mem_cons.mpr ⟨readable, parts⟩⟩
  obtain ⟨ts, lexed, reads⟩ := render_reads indent depth _ whole
  have own : (call note .construct callee args).ownTree imports =
      .construct (callee.ownTree imports) (args.map (ownTree imports)) := by
    rw [ownTree, ownTrees_eq]
  refine ⟨ts, lexed, reads, ?_, fun lost => tree_construct_of_exposes lost imports⟩
  rw [← own]
  exact tree_eq_ownTree_iff whole

/-- The constructor `load().Widget`, a member of what a call yields. -/
def loadedWidget : Expr :=
  let note := Note.typed .any
  .field note (.call note .direct (.named "load" .any) []) "Widget"

-- The text is read as `(new load()).Widget(x)`.
theorem loadedWidget_reads_as_call :
    let built : Expr := .call (.typed .any) .construct loadedWidget [.named "x" .any]
    let given : Tree := .call (.field (.construct (.name "load") []) "Widget") [.name "x"]
    let meant : Tree := .construct (.field (.call (.name "load") []) "Widget") [.name "x"]
    loadedWidget.Readable .ascii {} ∧ (Expr.named "x" .any).Readable .ascii {} ∧
      built.text .standard = "new load().Widget(x)" ∧
      built.ownTree {} = meant ∧ ¬ built.KeepsCallee ∧
      ∃ ts, lex .ascii (built.text .standard).toList = some ts ∧
        (∀ t, Reads .comma ts t ↔ t = given) ∧ ¬ Reads .comma ts meant := by
  intro built given meant
  have load : Alphabet.ascii.IsName "load" :=
    Alphabet.isName_of_letters _ (by decide) (by decide) (by decide)
  have x : Alphabet.ascii.IsName "x" :=
    Alphabet.isName_of_letters _ (by decide) (by decide) (by decide)
  have callee : loadedWidget.Readable .ascii {} := by
    apply CalleesOnly.readable
    simp [CalleesOnly, loadedWidget, named, subterms, subtermsAll, CalleeNode, load]
  have arg : (Expr.named "x" .any).Readable .ascii {} := by
    apply CalleesOnly.readable
    simp [CalleesOnly, named, subterms, CalleeNode, x]
  have lost : ¬ built.KeepsCallee := by
    simp [built, KeepsCallee, loadedWidget, isCall, exposesCall]
  obtain ⟨ts, lexed, reads, _, _⟩ := construct_reads_iff .standard 0 (.typed .any) loadedWidget
    [.named "x" .any] callee (by simpa using arg)
  refine ⟨callee, arg, rfl, rfl, lost, ts, lexed, reads, ?_⟩
  intro readsMeant
  have same : meant = given := (reads meant).mp readsMeant
  simp [meant, given] at same

end
end Expr
end CallReplacement
