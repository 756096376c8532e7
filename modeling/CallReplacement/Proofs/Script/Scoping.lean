import CallReplacement.Proofs.Expr.Scope
import CallReplacement.Proofs.JavaScript.Scope
import CallReplacement.Proofs.Script.ReadBack

/-!
When the text of an expression binds its names as the expression does. A chain of bindings
becomes one block, in which every constant is in scope everywhere; so a chain must not bind a
name twice, and no value in it may mention a name that is bound there or later. This is not only
enough but also necessary.
-/

namespace CallReplacement.Expr

open JavaScript

/-- Whether a name of the text refers to what the identifier at its place refers to. -/
def Agrees (meant : Option (Option Nat)) (read : Option Nat) : Prop :=
  ∀ binder ∈ meant, binder = read

/-- Whether no block of a tree declares a name twice, and each identifier of the expression
refers to the same binder in the tree, or is free in both. -/
def KeepsScopes (e : Expr) (t : Tree) : Prop :=
  t.DeclaresOnce ∧ List.Forall₂ Agrees (e.uses Scope.empty 0) (t.uses Scope.empty 0)

theorem forall₂_append_iff {α β : Type} {R : α → β → Prop} {as bs : List α} {cs ds : List β}
    (same : as.length = cs.length) :
    List.Forall₂ R (as ++ bs) (cs ++ ds) ↔ List.Forall₂ R as cs ∧ List.Forall₂ R bs ds := by
  induction as generalizing cs with
  | nil =>
      cases cs with
      | nil => simp
      | cons c rest => cases same
  | cons a rest ih =>
      cases cs with
      | nil => cases same
      | cons c others =>
          have shorter : rest.length = others.length := by simpa using same
          simp [ih shorter, and_assoc]

section
variable {α : Sort*} {see : List Tree → α} (imports : Imports)

theorem see_applied (transparent : Tree.Transparent see) (style : CallStyle) (s : Spine)
    (args : List Tree) : see [(Spine.applied style s args).tree] = see (s.tree :: args) := by
  cases style <;> simp [Spine.applied, see_spine transparent, Spine.before, Spine.renewed,
    List.flatMap_append, Suffix.parts]

theorem tree_calleeSpine (style : CallStyle) (callee : Expr) (s : Spine) :
    (calleeSpine style callee s).tree = s.tree := by
  rw [calleeSpine]
  split
  · rfl
  · rfl

-- A node that binds nothing shows nothing of itself but the trees of its children.
theorem see_plain (transparent : Tree.Transparent see) {e : Expr} (plain : e.isPlain) :
    see [e.tree imports] = see (e.children.map (tree imports)) := by
  cases e with
  | literal | ident | imported | raw | lambda | bind => cases plain
  | field note target name =>
      rw [tree_field]
      split
      · exact transparent.field _ _ _
      · rw [transparent.index]
        exact transparent.string [target.tree imports] name []
  | index note target key =>
      rw [tree_index]
      exact transparent.index _ _ _
  | call note style callee args =>
      have step := see_applied transparent style
        (calleeSpine style callee (callee.spine imports)) (args.map (tree imports))
      rw [tree_calleeSpine, ← readings_tree] at step
      rw [children, List.map_cons, ← readings_tree]
      exact step
  | object note fields =>
      have step := transparent.object (fields.map fun f => (f.1, f.2.tree imports)) []
      rw [List.append_nil, List.map_map] at step
      rw [tree_object, step, children, List.map_map]
      rfl
  | cast note operand => rfl
  | unary note op operand => exact transparent.unary _ _ _
  | binary note op left right => exact transparent.binary _ _ _ _
  | logical note op left right => exact transparent.binary _ _ _ _
  | conditional note guard yes no => exact transparent.conditional _ _ _ _
  | sequence note exprs =>
      cases exprs with
      | nil => cases plain
      | cons first rest =>
          cases rest with
          | nil => rfl
          | cons second others =>
              have step := transparent.sequence ((first :: second :: others).map (tree imports)) []
              rw [tree_sequence, step, List.append_nil, children]

/-- What is shown of an expression and its tree: they number their binders alike, and the tree
keeps the scopes in all surroundings that agree on the free identifiers. -/
structure Scoped (e : Expr) : Prop where
  binders : (e.tree imports).binders = e.binders
  length : ∀ (s t : Scope) (next later : Nat),
    (e.uses s next).length = ((e.tree imports).uses t later).length
  keeps : ∀ (s t : Scope) (next : Nat), s.Below next →
    ((e.tree imports).DeclaresOnce ∧
        List.Forall₂ Agrees (e.uses s next) ((e.tree imports).uses t next) ↔
      e.Separate ∧ ∀ x ∈ e.free, s x = t x)

variable {imports}

theorem binders_all {exprs : List Expr} (each : ∀ e ∈ exprs, Scoped imports e) :
    Tree.bindersAll (exprs.map (tree imports)) = bindersAll exprs := by
  induction exprs with
  | nil => rfl
  | cons e rest ih =>
      have head := each e List.mem_cons_self
      have tail := ih fun other member => each other (List.mem_cons_of_mem _ member)
      rw [List.map_cons, Tree.bindersAll, bindersAll, head.binders, tail]

theorem length_all {exprs : List Expr} (each : ∀ e ∈ exprs, Scoped imports e) (s t : Scope)
    (next later : Nat) :
    (usesAll s next exprs).length =
      (Tree.usesAll t later (exprs.map (tree imports))).length := by
  induction exprs generalizing next later with
  | nil => rfl
  | cons e rest ih =>
      have head := (each e List.mem_cons_self).length s t next later
      have tail := ih (fun other member => each other (List.mem_cons_of_mem _ member))
        (next + e.binders) (later + (e.tree imports).binders)
      rw [List.map_cons, usesAll, Tree.usesAll, List.length_append, List.length_append, head, tail]

theorem keeps_all {exprs : List Expr} (each : ∀ e ∈ exprs, Scoped imports e) (s t : Scope)
    (next : Nat) (below : s.Below next) :
    (Tree.DeclaresOnceAll (exprs.map (tree imports)) ∧
        List.Forall₂ Agrees (usesAll s next exprs)
          (Tree.usesAll t next (exprs.map (tree imports))) ↔
      (∀ e ∈ exprs, e.Separate) ∧ ∀ x ∈ freeAll exprs, s x = t x) := by
  induction exprs generalizing next with
  | nil => simp [Tree.DeclaresOnceAll, usesAll, Tree.usesAll, freeAll]
  | cons e rest ih =>
      have head := each e List.mem_cons_self
      have keepsHead := head.keeps s t next below
      have keepsTail := ih (fun other member => each other (List.mem_cons_of_mem _ member))
        (next + e.binders) (below.mono (Nat.le_add_right _ _))
      rw [List.map_cons, Tree.DeclaresOnceAll, usesAll, Tree.usesAll, head.binders,
        forall₂_append_iff (head.length s t next next), freeAll]
      simp only [List.forall_mem_cons, List.forall_mem_append]
      constructor
      · rintro ⟨⟨onceHead, onceTail⟩, agreeHead, agreeTail⟩
        obtain ⟨separate, same⟩ := keepsHead.mp ⟨onceHead, agreeHead⟩
        obtain ⟨separateTail, sameTail⟩ := keepsTail.mp ⟨onceTail, agreeTail⟩
        exact ⟨⟨separate, separateTail⟩, same, sameTail⟩
      · rintro ⟨⟨separate, separateTail⟩, same, sameTail⟩
        obtain ⟨onceHead, agreeHead⟩ := keepsHead.mpr ⟨separate, same⟩
        obtain ⟨onceTail, agreeTail⟩ := keepsTail.mpr ⟨separateTail, sameTail⟩
        exact ⟨⟨onceHead, onceTail⟩, agreeHead, agreeTail⟩

theorem bindsApart_plain {e : Expr} (plain : e.isPlain) : e.BindsApart := by
  cases e with
  | bind => cases plain
  | _ => trivial

theorem scoped_plain {e : Expr} (plain : e.isPlain)
    (each : ∀ c ∈ e.children, Scoped imports c) : Scoped imports e where
  binders := by
    have see := see_plain imports Tree.transparent_bindersAll plain
    rw [binders_all each, ← binders_plain plain] at see
    simpa [Tree.bindersAll] using see
  length s t next later := by
    have see := see_plain imports (Tree.transparent_usesAll t later) plain
    have same := length_all each s t next later
    rw [← see, ← uses_plain plain] at same
    simpa [Tree.usesAll] using same
  keeps s t next below := by
    have uses := see_plain imports (Tree.transparent_usesAll t next) plain
    have once := see_plain imports Tree.transparent_declaresOnceAll plain
    have keeps := keeps_all each s t next below
    rw [← uses, ← once, ← uses_plain plain, ← free_plain plain] at keeps
    rw [separate_iff]
    simpa [Tree.usesAll, Tree.DeclaresOnceAll, bindsApart_plain plain] using keeps

theorem agrees_some {binder read : Option Nat} : Agrees (some binder) read ↔ binder = read := by
  simp [Agrees]

theorem agrees_none (row : List (Option Nat)) :
    List.Forall₂ Agrees (List.replicate row.length none) row := by
  induction row with
  | nil => exact .nil
  | cons read rest ih => exact .cons (by simp [Agrees]) ih

/-- What a tree that binds nothing and holds so many names shows of itself. -/
structure Closed (t : Tree) (names : Nat) : Prop where
  binders : t.binders = 0
  once : t.DeclaresOnce
  length : ∀ s next, (t.uses s next).length = names

theorem Closed.signed {t : Tree} {names : Nat} (closed : Closed t names) (isNegative : Bool) :
    Closed (.signed isNegative t) names := by
  cases isNegative with
  | false => exact closed
  | true => exact ⟨closed.binders, closed.once, closed.length⟩

theorem closed_name (x : String) : Closed (.name x) 1 := ⟨rfl, trivial, fun _ _ => rfl⟩

theorem closed_number (text : String) : Closed (.number text) 0 := ⟨rfl, trivial, fun _ _ => rfl⟩

theorem closed_literal (value : Literal) : Closed (.ofLiteral value) value.names := by
  cases value with
  | null | string | char => exact ⟨rfl, trivial, fun _ _ => rfl⟩
  | unit => exact closed_name _
  | bool value => cases value <;> exact ⟨rfl, trivial, fun _ _ => rfl⟩
  | int value => exact (closed_number _).signed _
  | float value =>
      rw [Tree.ofLiteral, Tree.ofFloat, Literal.names]
      have either : (value.isNaN || value.isInf) ↔ value.isNaN ∨ value.isInf := Bool.or_eq_true_iff
      by_cases isNaN : value.isNaN
      · rw [if_pos isNaN, if_pos (either.mpr (.inl isNaN))]
        exact closed_name _
      · by_cases isInf : value.isInf
        · rw [if_neg isNaN, if_pos isInf, if_pos (either.mpr (.inr isInf))]
          exact (closed_name _).signed _
        · rw [if_neg isNaN, if_neg isInf, if_neg (mt either.mp (not_or.mpr ⟨isNaN, isInf⟩))]
          exact (closed_number _).signed _

-- An expression without identifiers says nothing about names.
theorem scoped_closed {e : Expr} {names : Nat} (closed : Closed (e.tree imports) names)
    (binders : e.binders = 0) (uses : ∀ s next, e.uses s next = List.replicate names none)
    (free : e.free = []) (separate : e.Separate) : Scoped imports e where
  binders := closed.binders.trans binders.symm
  length s t next later := by rw [uses, List.length_replicate, closed.length]
  keeps s t next _ := by
    have agree : List.Forall₂ Agrees (e.uses s next) ((e.tree imports).uses t next) := by
      rw [uses, ← closed.length t next]
      exact agrees_none _
    rw [free]
    constructor
    · intro _
      exact ⟨separate, by simp⟩
    · intro _
      exact ⟨closed.once, agree⟩

theorem separate_of_leaf {e : Expr} (leaf : e.children = []) : e.Separate := by
  rw [separate_iff, leaf]
  refine ⟨?_, by simp⟩
  cases e with
  | bind => cases leaf
  | _ => trivial

theorem scoped_ident (note : Note) (binding : Binding) : Scoped imports (ident note binding) where
  binders := rfl
  length _ _ _ _ := rfl
  keeps s t next _ := by
    have tree : (ident note binding).tree imports = .name binding.name := rfl
    have separate : (ident note binding).Separate := separate_of_leaf rfl
    simp [tree, uses, Tree.uses, Tree.DeclaresOnce, free, agrees_some, separate]

theorem scoped_lambda (note : Note) (params : List Binding) {body : Expr}
    (kept : Scoped imports body) : Scoped imports (lambda note params body) where
  binders := by
    rw [tree_lambda, Tree.binders, List.length_map, kept.binders, Expr.binders]
  length s t next later := kept.length _ _ _ _
  keeps s t next below := by
    have inner : (s.bindAll next (params.map Binding.name)).Below (next + params.length) := by
      simpa using below.bindAll (params.map Binding.name)
    have keeps := kept.keeps _ (t.bindAll next (params.map Binding.name)) _ inner
    have separate : (lambda note params body).Separate ↔ body.Separate := by
      rw [separate_iff]
      simp [BindsApart, children]
    rw [tree_lambda, Tree.DeclaresOnce, uses, Tree.uses, List.length_map, keeps, separate, free]
    apply and_congr_right
    intro _
    simp only [Scope.bindAll_agree, List.mem_filter, decide_eq_true_eq, and_imp]
    exact forall_congr' fun x => imp_congr_right fun _ => or_iff_not_imp_left

/-- What is shown of the lines of a block that an expression ends: the block declares the names
of its chain, and it keeps the scopes in the same way if these differ. -/
structure ScopedChain (imports : Imports) (e : Expr) : Prop where
  names : (e.reading imports .rest).constants.map Prod.fst = e.chained
  binders : Tree.bindersConstants (e.reading imports .rest).constants +
    (e.reading imports .rest).tree.binders = e.binders
  length : ∀ (s t : Scope) (next later last : Nat), (e.uses s next).length =
    (Tree.usesConstants t later (e.reading imports .rest).constants).length +
      ((e.reading imports .rest).tree.uses t last).length
  keeps : ∀ (s t : Scope) (next : Nat), s.Below next → e.chained.Nodup →
    let rest := e.reading imports .rest
    let block := Tree.declare t next rest.constants
    ((Tree.DeclaresOnceFields rest.constants ∧ rest.tree.DeclaresOnce) ∧
        List.Forall₂ Agrees (e.uses s next) (Tree.usesConstants block next rest.constants ++
          rest.tree.uses block (next + Tree.bindersConstants rest.constants)) ↔
      e.Separate ∧ ∀ x ∈ e.free, s x = t x)

theorem names_rest (e : Expr) : (e.reading imports .rest).constants.map Prod.fst = e.chained := by
  induction e using induction_children with
  | step e ih =>
    cases e with
    | bind note binding value body =>
        rw [constants_bind, List.map_cons, ih body (by simp [children]), chained]
    | _ => rfl

-- Without a binding nothing is declared, and the result is the expression.
theorem reading_rest {e : Expr} (noBind : e.isBind = false) :
    (e.reading imports .rest).constants = [] ∧ (e.reading imports .rest).tree = e.tree imports := by
  cases e <;> first | exact ⟨rfl, rfl⟩ | cases noBind

theorem Scoped.chain {e : Expr} (noBind : e.isBind = false) (kept : Scoped imports e) :
    ScopedChain imports e := by
  obtain ⟨nothing, rest⟩ := @reading_rest imports e noBind
  constructor
  · exact names_rest e
  · rw [nothing, rest, Tree.bindersConstants, Nat.zero_add, kept.binders]
  · intro s t next later last
    rw [nothing, rest, Tree.usesConstants, List.length_nil, Nat.zero_add]
    exact kept.length s t next last
  · intro s t next below _
    simp only [nothing, rest, Tree.DeclaresOnceFields, true_and, Tree.usesConstants,
      List.nil_append, Tree.declare, Tree.bindersConstants, Nat.add_zero]
    exact kept.keeps s t next below

-- The names of a block hide those around it: its values keep their scopes only if they mention
-- none of the names.
theorem agree_declare {s t : Scope} {next : Nat} (below : s.Below next)
    (constants : List (String × Tree)) (names : List String) :
    (∀ x ∈ names, s x = Tree.declare t next constants x) ↔
      (∀ x ∈ constants.map Prod.fst, x ∉ names) ∧ ∀ x ∈ names, s x = t x := by
  constructor
  · intro agree
    have apart : ∀ x ∈ constants.map Prod.fst, x ∉ names := by
      intro x declared mentioned
      obtain ⟨binder, found, order⟩ := @Tree.declare_of_mem t next _ _ declared
      have early := below x binder ((agree x mentioned).trans found)
      omega
    refine ⟨apart, ?_⟩
    intro x mentioned
    have other : x ∉ constants.map Prod.fst := by
      intro declared
      exact apart x declared mentioned
    rw [agree x mentioned, Tree.declare_of_not_mem other]
  · rintro ⟨apart, agree⟩ x mentioned
    have other : x ∉ constants.map Prod.fst := by
      intro declared
      exact apart x declared mentioned
    rw [agree x mentioned, Tree.declare_of_not_mem other]

theorem separate_bind (note : Note) (binding : Binding) (value body : Expr) :
    (bind note binding value body).Separate ↔
      (binding.name ∉ body.chained ∧ ∀ x ∈ binding.name :: body.chained, x ∉ value.free) ∧
        value.Separate ∧ body.Separate := by
  rw [separate_iff]
  simp [BindsApart, children]

theorem chain_bind (note : Note) (binding : Binding) {value body : Expr}
    (kept : Scoped imports value) (chain : ScopedChain imports body) :
    ScopedChain imports (bind note binding value body) := by
  have names : ((binding.name, value.tree imports) ::
      (body.reading imports .rest).constants).map Prod.fst = binding.name :: body.chained := by
    rw [List.map_cons, names_rest]
  constructor
  · exact names_rest _
  · have rest := chain.binders
    rw [constants_bind, result_bind, Tree.bindersConstants, Expr.binders, kept.binders]
    omega
  · intro s t next later last
    have first := kept.length s t (next + 1) (later + 1)
    have rest := chain.length (s.bind binding.name next) t (next + 1 + value.binders)
      (later + 1 + (value.tree imports).binders) last
    rw [constants_bind, result_bind, uses, Tree.usesConstants, List.length_append,
      List.length_append, first, rest]
    exact (Nat.add_assoc _ _ _).symm
  · intro s t next below nodup
    rw [chained, List.nodup_cons] at nodup
    obtain ⟨fresh, nodup⟩ := nodup
    let block := Tree.declare t next ((binding.name, value.tree imports) ::
      (body.reading imports .rest).constants)
    have blockBody : Tree.declare (t.bind binding.name next) (next + 1 + value.binders)
        (body.reading imports .rest).constants = block := by
      rw [← kept.binders]
      rfl
    have keepsValue := kept.keeps s block (next + 1) (below.mono (Nat.le_succ _))
    have keepsBody := chain.keeps (s.bind binding.name next) (t.bind binding.name next)
      (next + 1 + value.binders) ((below.bind _).mono (Nat.le_add_right _ _)) nodup
    have length := kept.length s block (next + 1) (next + 1)
    simp only [blockBody] at keepsBody
    rw [agree_declare below, names] at keepsValue
    simp only [constants_bind, result_bind]
    rw [uses, Tree.DeclaresOnceFields, Tree.usesConstants, Tree.bindersConstants, kept.binders,
      List.append_assoc, forall₂_append_iff length, separate_bind, free,
      ← Nat.add_assoc, ← Nat.add_assoc]
    simp only [Scope.bind_agree] at keepsBody
    simp only [List.forall_mem_append, List.mem_filter, decide_eq_true_eq, and_imp]
    constructor
    · rintro ⟨⟨⟨onceValue, onceConstants⟩, onceResult⟩, agreeValue, agreeBody⟩
      obtain ⟨separateValue, apart, sameValue⟩ := keepsValue.mp ⟨onceValue, agreeValue⟩
      obtain ⟨separateBody, sameBody⟩ := keepsBody.mp ⟨⟨onceConstants, onceResult⟩, agreeBody⟩
      refine ⟨⟨⟨fresh, apart⟩, separateValue, separateBody⟩, sameValue, ?_⟩
      intro x member other
      exact (sameBody x member).resolve_left other
    · rintro ⟨⟨⟨_, apart⟩, separateValue, separateBody⟩, sameValue, sameBody⟩
      obtain ⟨onceValue, agreeValue⟩ := keepsValue.mpr ⟨separateValue, apart, sameValue⟩
      have behind : ∀ x ∈ body.free, x = binding.name ∨ s x = t x := by
        intro x member
        by_cases own : x = binding.name
        · exact .inl own
        · exact .inr (sameBody x member own)
      obtain ⟨⟨onceConstants, onceResult⟩, agreeBody⟩ := keepsBody.mpr ⟨separateBody, behind⟩
      exact ⟨⟨⟨onceValue, onceConstants⟩, onceResult⟩, agreeValue, agreeBody⟩

theorem uses_block (s : Scope) (next : Nat) (constants : List (String × Tree)) (result : Tree) :
    Tree.uses s next (.call (.routine [] constants result) []) =
      Tree.usesConstants (Tree.declare s next constants) next constants ++
        result.uses (Tree.declare s next constants) (next + Tree.bindersConstants constants) := by
  simp [Tree.uses, Tree.usesAll, Scope.bindAll]

theorem declaresOnce_block (constants : List (String × Tree)) (result : Tree) :
    Tree.DeclaresOnce (.call (.routine [] constants result) []) ↔
      (constants.map Prod.fst).Nodup ∧ Tree.DeclaresOnceFields constants ∧
        result.DeclaresOnce := by
  simp [Tree.DeclaresOnce, Tree.DeclaresOnceAll]

-- If a block declares a name twice, it keeps no scopes, and its chain is not separate either.
theorem scoped_bind {note : Note} {binding : Binding} {value body : Expr}
    (chain : ScopedChain imports (bind note binding value body)) :
    Scoped imports (bind note binding value body) := by
  constructor
  · rw [tree_block, ← chain.binders]
    simp [Tree.binders, Tree.bindersAll]
  · intro s t next later
    rw [tree_block, uses_block, List.length_append]
    exact chain.length s _ next _ _
  · intro s t next below
    rw [tree_block, uses_block, declaresOnce_block, chain.names]
    constructor
    · rintro ⟨⟨nodup, once⟩, agree⟩
      exact (chain.keeps s t next below nodup).mp ⟨once, agree⟩
    · rintro ⟨separate, same⟩
      have nodup := separate.nodup_chained
      obtain ⟨once, agree⟩ := (chain.keeps s t next below nodup).mpr ⟨separate, same⟩
      exact ⟨⟨nodup, once⟩, agree⟩

def isRaw : Expr → Bool
  | .raw .. => true
  | _ => false

/-- Whether no raw text is in an expression. -/
def NoRaw (e : Expr) : Prop := ∀ s ∈ e.subterms, s.isRaw = false

theorem noRaw_iff (e : Expr) : e.NoRaw ↔ e.isRaw = false ∧ ∀ c ∈ e.children, c.NoRaw :=
  forall_subterms_iff (fun s => s.isRaw = false) e

/-- Without raw text a node is plain, a leaf, a function or a binding. -/
@[elab_as_elim]
theorem induction_noRaw {motive : Expr → Prop}
    (plain : ∀ e : Expr, e.isPlain → (∀ c ∈ e.children, motive c) → motive e)
    (literal : ∀ note value, motive (.literal note value))
    (ident : ∀ note binding, motive (.ident note binding))
    (imported : ∀ note source, motive (.imported note source))
    (lambda : ∀ note params body, motive body → motive (.lambda note params body))
    (bind : ∀ note binding value body, motive value → motive body →
      motive (.bind note binding value body))
    (nothing : ∀ note, motive (.sequence note [])) (e : Expr) (noRaw : e.NoRaw) : motive e := by
  induction e using induction_children with
  | step e ih =>
    obtain ⟨notRaw, below⟩ := (noRaw_iff e).mp noRaw
    have inner : ∀ c ∈ e.children, motive c := fun c member => ih c member (below c member)
    by_cases isPlain : e.isPlain
    · exact plain e isPlain inner
    · cases e with
      | literal note value => exact literal note value
      | ident note binding => exact ident note binding
      | imported note source => exact imported note source
      | raw => cases notRaw
      | lambda note params body => exact lambda note params body (inner body List.mem_cons_self)
      | bind note binding value body =>
          exact bind note binding value body (inner value (by simp [children]))
            (inner body (by simp [children]))
      | sequence note exprs =>
          cases exprs with
          | nil => exact nothing note
          | cons e rest => exact absurd rfl isPlain
      | _ => exact absurd rfl isPlain

-- The chain of a binding goes on in its body, so both facts are proved together.
theorem scoped_both (e : Expr) (noRaw : e.NoRaw) : Scoped imports e ∧ ScopedChain imports e := by
  refine induction_noRaw ?plain ?literal ?ident ?imported ?lambda ?bind ?nothing e noRaw
  case plain =>
    intro e plain inner
    have kept := scoped_plain plain fun c member => (inner c member).1
    have noBind : e.isBind = false := by
      cases e <;> first | rfl | cases plain
    exact ⟨kept, kept.chain noBind⟩
  case literal =>
    intro note value
    have kept : Scoped imports (literal note value) :=
      scoped_closed (closed_literal value) rfl (fun _ _ => rfl) rfl (separate_of_leaf rfl)
    exact ⟨kept, kept.chain rfl⟩
  case ident =>
    intro note binding
    exact ⟨scoped_ident note binding, (scoped_ident note binding).chain rfl⟩
  case imported =>
    intro note source
    have kept : Scoped imports (imported note source) :=
      scoped_closed (closed_name _) rfl (fun _ _ => rfl) rfl (separate_of_leaf rfl)
    exact ⟨kept, kept.chain rfl⟩
  case lambda =>
    intro note params body inner
    have kept := scoped_lambda note params inner.1
    exact ⟨kept, kept.chain rfl⟩
  case bind =>
    intro note binding value body first rest
    have chain := chain_bind note binding first.1 rest.2
    exact ⟨scoped_bind chain, chain⟩
  case nothing =>
    intro note
    have kept : Scoped imports (sequence note []) :=
      scoped_closed (closed_name _) rfl (fun _ _ => rfl) rfl (separate_of_leaf rfl)
    exact ⟨kept, kept.chain rfl⟩

-- A text has one reading, and this keeps the scopes if and only if no binding of a chain gets in
-- the way of another.
theorem scopes_kept_iff_separate (A : Alphabet) (indent : Indent) (imports : Imports) (depth : Nat)
    (e : Expr) (noRaw : e.NoRaw) :
    (KeepsScopes e (e.tree imports) ↔ e.Separate) ∧
      (e.Readable A imports → ∃ ts, lex A (e.render indent imports depth).text.toList = some ts ∧
        ∀ t, Reads .comma ts t ↔ t = e.tree imports) := by
  constructor
  · have kept := (@scoped_both imports e noRaw).1
    have keeps := kept.keeps Scope.empty Scope.empty 0 (Scope.below_empty 0)
    simpa [KeepsScopes] using keeps
  · intro readable
    exact render_reads indent depth e readable

/-- A name that is bound again in the body of its binding. -/
def rebound : Expr :=
  let note := Note.typed .any
  .bind note ⟨"x", .any⟩ (.literal note (.int 1))
    (.bind note ⟨"x", .any⟩ (.literal note (.int 2)) (.ident note ⟨"x", .any⟩))

theorem rebound_loses_scopes :
    rebound.NoRaw ∧ ¬ KeepsScopes rebound (rebound.tree {}) ∧
      ∃ ts, lex .ascii (rebound.text .standard).toList = some ts ∧
        ∀ t, Reads .comma ts t ↔ t = rebound.tree {} := by
  have noRaw : rebound.NoRaw := by
    simp [NoRaw, rebound, subterms, isRaw]
  have isName : Alphabet.ascii.IsName "x" :=
    Alphabet.isName_of_letters _ (by decide) (by decide) (by decide)
  have readable : rebound.Readable .ascii {} := by
    simp [Readable, rebound, subterms, ReadableNode, isName]
  obtain ⟨kept, reads⟩ := scopes_kept_iff_separate .ascii .standard {} 0 rebound noRaw
  refine ⟨noRaw, ?_, reads readable⟩
  rw [kept, rebound, separate_bind]
  rintro ⟨⟨fresh, _⟩, _⟩
  exact fresh List.mem_cons_self

end
end CallReplacement.Expr
