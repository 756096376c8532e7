import CallReplacement.Proofs.Source.Postorder

/-!
Places in source trees. A place is the row of the numbers of the parts that lead down to it, and
places are ordered as words are: an expression comes before its parts, and a part with everything
in it before the next part. `subterms` lists the expressions of all places in this order, so what
a search finds in it is what stands at the first place.
-/

namespace CallReplacement.SourceExpr

/-- Whether an expression is the part of another one with this number, in order of evaluation. -/
inductive Part : SourceExpr → Nat → SourceExpr → Prop
  | receiver {member target args generics range} :
      Part (.call member (some target) args generics range) 0 target
  | argument {member receiver args generics range n arg} : args[n]? = some arg →
      Part (.call member receiver args generics range) (receiver.toList.length + n) arg
  | callee {callee args type range} : Part (.apply callee args type range) 0 callee
  | applied {callee args type range n arg} : args[n]? = some arg →
      Part (.apply callee args type range) (n + 1) arg
  | target {target field type range} : Part (.get target field type range) 0 target
  | result {params body range} : Part (.lambda params body range) 0 body
  | bound {name type value body range} : Part (.bind name type value body range) 0 value
  | scope {name type value body range} : Part (.bind name type value body range) 1 body
  | guard {guard yes no range} : Part (.conditional guard yes no range) 0 guard
  | yes {guard yes no range} : Part (.conditional guard yes no range) 1 yes
  | no {guard yes no range} : Part (.conditional guard yes no range) 2 no
  | step {exprs range n e} : exprs[n]? = some e → Part (.sequence exprs range) n e
  | field {fields type range n name e} : fields[n]? = some (name, e) →
      Part (.record fields type range) n e
  | left {op left right type range} : Part (.binary op left right type range) 0 left
  | right {op left right type range} : Part (.binary op left right type range) 1 right
  | first {op left right range} : Part (.logical op left right range) 0 left
  | second {op left right range} : Part (.logical op left right range) 1 right
  | operand {op operand type range} : Part (.unary op operand type range) 0 operand
  | coerced {operand type range} : Part (.coerce operand type range) 0 operand

theorem part_iff (e : SourceExpr) (n : Nat) (part : SourceExpr) :
    e.Part n part ↔ e.children[n]? = some part := by
  constructor
  · intro isPart
    cases isPart with
    | argument found => simpa [children, List.getElem?_append_right] using found
    | field found => simp [children, found]
    | applied found | step found => simpa [children] using found
    | _ => rfl
  · intro found
    cases e with
    | const | ident => simp [children] at found
    | call member receiver args generics range =>
        cases receiver with
        | none =>
            have isPart : (call member none args generics range).Part (0 + n) part :=
              .argument (by simpa [children] using found)
            rwa [Nat.zero_add] at isPart
        | some target =>
            cases n with
            | zero =>
                cases found
                exact .receiver
            | succ n =>
                have isPart : (call member (some target) args generics range).Part (1 + n) part :=
                  .argument found
                rwa [Nat.add_comm] at isPart
    | apply =>
        cases n with
        | zero =>
            cases found
            exact .callee
        | succ n => exact .applied found
    | sequence => exact .step found
    | record fields =>
        simp only [children, List.getElem?_map] at found
        obtain ⟨⟨name, e⟩, isField, rfl⟩ := Option.map_eq_some_iff.mp found
        exact .field isField
    | get | lambda | unary | coerce | bind | binary | logical | conditional =>
        -- Each part has a number of its own here.
        rcases n with _ | _ | _ | n <;> cases found <;> constructor

/-- Whether an expression stands at a place of another one. -/
inductive Stands : SourceExpr → List Nat → SourceExpr → Prop
  | here {e} : Stands e [] e
  | inside {e n part place s} : e.Part n part → Stands part place s → Stands e (n :: place) s

/-- Whether an expression stands at a place of some trees, of which the first number selects one. -/
inductive Within (trees : List SourceExpr) : List Nat → SourceExpr → Prop
  | tree {n tree place s} : trees[n]? = some tree → tree.Stands place s → Within trees (n :: place) s

theorem stands_iff (e : SourceExpr) (place : List Nat) (s : SourceExpr) :
    e.Stands place s ↔ (place = [] ∧ s = e) ∨ Within e.children place s := by
  constructor
  · intro stands
    cases stands with
    | here => exact .inl ⟨rfl, rfl⟩
    | inside isPart stands => exact .inr (.tree ((part_iff _ _ _).mp isPart) stands)
  · rintro (⟨rfl, rfl⟩ | ⟨found, stands⟩)
    · exact .here
    · exact .inside ((part_iff _ _ _).mpr found) stands

-- A place leads to one expression.
theorem Stands.unique {e s t : SourceExpr} {place : List Nat} (first : e.Stands place s)
    (second : e.Stands place t) : s = t := by
  induction first with
  | here =>
      cases second
      rfl
  | inside isPart _ ih =>
      cases second with
      | inside isPart' stands =>
          rw [part_iff] at isPart isPart'
          rw [isPart, Option.some_inj] at isPart'
          exact ih (isPart' ▸ stands)

theorem Within.unique {trees : List SourceExpr} {s t : SourceExpr} {place : List Nat}
    (first : Within trees place s) (second : Within trees place t) : s = t := by
  obtain ⟨found, stands⟩ := first
  obtain ⟨found', stands'⟩ := second
  rw [found, Option.some_inj] at found'
  exact stands.unique (found' ▸ stands')

/-- Every expression in a tree stands at some place of it, and nothing else does. -/
theorem mem_subterms_iff (e s : SourceExpr) : s ∈ e.subterms ↔ ∃ place, e.Stands place s := by
  induction e using induction_children with
  | step e ih =>
    rw [subterms_eq, List.mem_cons, List.mem_flatMap]
    constructor
    · rintro (rfl | ⟨c, member, inside⟩)
      · exact ⟨[], .here⟩
      · obtain ⟨n, found⟩ := List.mem_iff_getElem?.mp member
        obtain ⟨place, stands⟩ := (ih c member).mp inside
        exact ⟨n :: place, .inside ((part_iff _ _ _).mpr found) stands⟩
    · rintro ⟨place, stands⟩
      cases stands with
      | here => exact .inl rfl
      | inside isPart stands =>
          have member := List.mem_of_getElem? ((part_iff _ _ _).mp isPart)
          exact .inr ⟨_, member, (ih _ member).mpr ⟨_, stands⟩⟩

theorem mem_flatMap_subterms_iff (trees : List SourceExpr) (s : SourceExpr) :
    s ∈ trees.flatMap subterms ↔ ∃ place, Within trees place s := by
  rw [List.mem_flatMap]
  constructor
  · rintro ⟨tree, member, inside⟩
    obtain ⟨n, found⟩ := List.mem_iff_getElem?.mp member
    obtain ⟨place, stands⟩ := (mem_subterms_iff tree s).mp inside
    exact ⟨n :: place, .tree found stands⟩
  · rintro ⟨_, found, stands⟩
    exact ⟨_, List.mem_of_getElem? found, (mem_subterms_iff _ s).mpr ⟨_, stands⟩⟩

/-- Whether a place is another one or comes before it. -/
inductive UpTo : List Nat → List Nat → Prop
  | whole {other} : UpTo [] other
  | earlier {m n place other} : m < n → UpTo (m :: place) (n :: other)
  | within {n place other} : UpTo place other → UpTo (n :: place) (n :: other)

theorem UpTo.antisymm {place other : List Nat} (upTo : UpTo place other)
    (back : UpTo other place) : place = other := by
  induction upTo with
  | whole =>
      cases back
      rfl
  | earlier less =>
      cases back with
      | earlier more => exact absurd more (Nat.lt_asymm less)
      | within => exact absurd less (Nat.lt_irrefl _)
  | within _ ih =>
      cases back with
      | earlier less => exact absurd less (Nat.lt_irrefl _)
      | within back => rw [ih back]

section Search
variable {α : Type} (f : SourceExpr → Option α)

/-- Whether this is the answer at the first of the places at which there is one. -/
def FirstAnswer (stands : List Nat → SourceExpr → Prop) (answer : α) : Prop :=
  ∃ place s, stands place s ∧ f s = some answer ∧
    ∀ other t result, stands other t → f t = some result → UpTo place other

theorem findSome?_flatMap (trees : List SourceExpr) :
    (trees.flatMap subterms).findSome? f = trees.findSome? fun tree => tree.subterms.findSome? f := by
  induction trees with
  | nil => rfl
  | cons tree rest ih =>
      rw [List.flatMap_cons, List.findSome?_append, ih, List.findSome?_cons]
      cases tree.subterms.findSome? f <;> rfl

variable {f}

-- The trees before the one with the answer have none, and those behind it have later places.
theorem firstAnswer_within {trees : List SourceExpr} {answer : α}
    (each : ∀ tree ∈ trees, ∀ answer, tree.subterms.findSome? f = some answer →
      FirstAnswer f tree.Stands answer)
    (found : (trees.flatMap subterms).findSome? f = some answer) :
    FirstAnswer f (Within trees) answer := by
  rw [findSome?_flatMap, List.findSome?_eq_some_iff] at found
  obtain ⟨before, tree, after, rfl, found, none⟩ := found
  obtain ⟨place, s, stands, answers, least⟩ := each tree (by simp) answer found
  refine ⟨before.length :: place, s, .tree (by simp) stands, answers, ?_⟩
  rintro _ t result ⟨selects, inside⟩ other
  rename_i n tree' place'
  rcases Nat.lt_trichotomy before.length n with later | rfl | earlier
  · exact .earlier later
  · obtain rfl : tree = tree' := by simpa using selects
    exact .within (least _ t result inside other)
  · rw [List.getElem?_append_left earlier] at selects
    have nothing := none tree' (List.mem_of_getElem? selects)
    rw [List.findSome?_eq_none_iff] at nothing
    rw [nothing t ((mem_subterms_iff tree' t).mpr ⟨_, inside⟩)] at other
    cases other

-- By induction on the tree: the expression itself comes before everything in it.
theorem firstAnswer_stands (e : SourceExpr) (answer : α)
    (found : e.subterms.findSome? f = some answer) : FirstAnswer f e.Stands answer := by
  induction e using induction_children generalizing answer with
  | step e ih =>
    rw [subterms_eq, List.findSome?_cons] at found
    cases own : f e with
    | some value =>
        obtain rfl : value = answer := by simpa [own] using found
        exact ⟨[], e, .here, own, fun _ _ _ _ _ => .whole⟩
    | none =>
        rw [own] at found
        obtain ⟨place, s, stands, answers, least⟩ := firstAnswer_within ih found
        refine ⟨place, s, (stands_iff e place s).mpr (.inr stands), answers, ?_⟩
        intro other t result inside answersToo
        rcases (stands_iff e other t).mp inside with ⟨_, rfl⟩ | inside
        · rw [own] at answersToo
          cases answersToo
        · exact least other t result inside answersToo

/-- The first answer in pre-order is the one at the first place. -/
theorem findSome?_eq_some_iff_firstAnswer (trees : List SourceExpr) (answer : α) :
    (trees.flatMap subterms).findSome? f = some answer ↔ FirstAnswer f (Within trees) answer := by
  have forward : ∀ answer, (trees.flatMap subterms).findSome? f = some answer →
      FirstAnswer f (Within trees) answer := by
    intro answer found
    exact firstAnswer_within (fun tree _ answer => firstAnswer_stands tree answer) found
  constructor
  · exact forward answer
  · rintro ⟨place, s, stands, answers, least⟩
    cases found : (trees.flatMap subterms).findSome? f with
    | none =>
        rw [List.findSome?_eq_none_iff] at found
        have silent := found s ((mem_flatMap_subterms_iff trees s).mpr ⟨place, stands⟩)
        rw [silent] at answers
        cases answers
    | some result =>
        obtain ⟨place', s', stands', answers', least'⟩ := forward result found
        obtain rfl : place = place' :=
          (least place' s' result stands' answers').antisymm (least' place s answer stands answers)
        rw [stands.unique stands', answers'] at answers
        exact answers

end Search
end CallReplacement.SourceExpr
