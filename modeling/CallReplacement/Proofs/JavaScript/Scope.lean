import CallReplacement.Proofs.JavaScript.Spine
import CallReplacement.Proofs.Scope

/-!
How names are resolved in a tree. A function binds its parameters; the constants that it
declares are in scope in its whole block, in their own values too, and no name may be declared
twice in a block.
-/

namespace CallReplacement.JavaScript

namespace Tree

mutual

/-- The number of binders in a tree. -/
def binders : Tree → Nat
  | .name _ | .number _ | .string _ | .constant _ => 0
  | .object fields => bindersFields fields
  | .field target _ => binders target
  | .index target key => binders target + binders key
  | .call callee args | .construct callee args => binders callee + bindersAll args
  | .unary _ operand => binders operand
  | .binary _ left right => binders left + binders right
  | .conditional guard yes no => binders guard + (binders yes + binders no)
  | .sequence parts => bindersAll parts
  | .arrow params body => params.length + binders body
  | .routine params constants result =>
      params.length + (bindersConstants constants + binders result)

def bindersAll : List Tree → Nat
  | [] => 0
  | t :: rest => binders t + bindersAll rest

def bindersFields : List (String × Tree) → Nat
  | [] => 0
  | (_, t) :: rest => binders t + bindersFields rest

/-- The constants themselves and the binders in their values. -/
def bindersConstants : List (String × Tree) → Nat
  | [] => 0
  | (_, t) :: rest => 1 + binders t + bindersConstants rest

end

/-- The scope of a block: each constant has the number of its declaration. -/
def declare (s : Scope) (next : Nat) : List (String × Tree) → Scope
  | [] => s
  | (x, t) :: rest => declare (s.bind x next) (next + 1 + t.binders) rest

mutual

/-- What each name in a tree refers to, in the order of the text. The binders before the tree
number `next`. -/
def uses (s : Scope) (next : Nat) : Tree → List (Option Nat)
  | .name text => [s text]
  | .number _ | .string _ | .constant _ => []
  | .object fields => usesFields s next fields
  | .field target _ => uses s next target
  | .index target key => uses s next target ++ uses s (next + target.binders) key
  | .call callee args | .construct callee args =>
      uses s next callee ++ usesAll s (next + callee.binders) args
  | .unary _ operand => uses s next operand
  | .binary _ left right => uses s next left ++ uses s (next + left.binders) right
  | .conditional guard yes no =>
      uses s next guard ++ (uses s (next + guard.binders) yes ++
        uses s (next + guard.binders + yes.binders) no)
  | .sequence parts => usesAll s next parts
  | .arrow params body => uses (s.bindAll next params) (next + params.length) body
  | .routine params constants result =>
      let block := declare (s.bindAll next params) (next + params.length) constants
      usesConstants block (next + params.length) constants ++
        uses block (next + params.length + bindersConstants constants) result

def usesAll (s : Scope) (next : Nat) : List Tree → List (Option Nat)
  | [] => []
  | t :: rest => uses s next t ++ usesAll s (next + t.binders) rest

def usesFields (s : Scope) (next : Nat) : List (String × Tree) → List (Option Nat)
  | [] => []
  | (_, t) :: rest => uses s next t ++ usesFields s (next + t.binders) rest

/-- The names in the values of constants. -/
def usesConstants (s : Scope) (next : Nat) : List (String × Tree) → List (Option Nat)
  | [] => []
  | (_, t) :: rest => uses s (next + 1) t ++ usesConstants s (next + 1 + t.binders) rest

end

mutual

/-- Whether no block declares a name twice. -/
def DeclaresOnce : Tree → Prop
  | .name _ | .number _ | .string _ | .constant _ => True
  | .object fields => DeclaresOnceFields fields
  | .field target _ => DeclaresOnce target
  | .index target key => DeclaresOnce target ∧ DeclaresOnce key
  | .call callee args | .construct callee args => DeclaresOnce callee ∧ DeclaresOnceAll args
  | .unary _ operand => DeclaresOnce operand
  | .binary _ left right => DeclaresOnce left ∧ DeclaresOnce right
  | .conditional guard yes no => DeclaresOnce guard ∧ DeclaresOnce yes ∧ DeclaresOnce no
  | .sequence parts => DeclaresOnceAll parts
  | .arrow _ body => DeclaresOnce body
  | .routine _ constants result =>
      (constants.map Prod.fst).Nodup ∧ DeclaresOnceFields constants ∧ DeclaresOnce result

def DeclaresOnceAll : List Tree → Prop
  | [] => True
  | t :: rest => DeclaresOnce t ∧ DeclaresOnceAll rest

def DeclaresOnceFields : List (String × Tree) → Prop
  | [] => True
  | (_, t) :: rest => DeclaresOnce t ∧ DeclaresOnceFields rest

end

theorem bindersFields_eq (fields : List (String × Tree)) :
    bindersFields fields = bindersAll (fields.map Prod.snd) := by
  induction fields with
  | nil => rfl
  | cons field rest ih => rw [bindersFields, ih]; rfl

theorem usesFields_eq (s : Scope) (next : Nat) (fields : List (String × Tree)) :
    usesFields s next fields = usesAll s next (fields.map Prod.snd) := by
  induction fields generalizing next with
  | nil => rfl
  | cons field rest ih => rw [usesFields, ih]; rfl

theorem declaresOnceFields_eq (fields : List (String × Tree)) :
    DeclaresOnceFields fields = DeclaresOnceAll (fields.map Prod.snd) := by
  induction fields with
  | nil => rfl
  | cons field rest ih => rw [DeclaresOnceFields, ih]; rfl

theorem bindersAll_append (ts us : List Tree) :
    bindersAll (ts ++ us) = bindersAll ts + bindersAll us := by
  induction ts with
  | nil => simp [bindersAll]
  | cons t rest ih => rw [List.cons_append, bindersAll, bindersAll, ih, Nat.add_assoc]

theorem usesAll_append (s : Scope) (next : Nat) (ts us : List Tree) :
    usesAll s next (ts ++ us) = usesAll s next ts ++ usesAll s (next + bindersAll ts) us := by
  induction ts generalizing next with
  | nil => simp [usesAll, bindersAll]
  | cons t rest ih =>
      rw [List.cons_append, usesAll, usesAll, ih, List.append_assoc, bindersAll, Nat.add_assoc]

theorem declaresOnceAll_append (ts us : List Tree) :
    DeclaresOnceAll (ts ++ us) ↔ DeclaresOnceAll ts ∧ DeclaresOnceAll us := by
  induction ts with
  | nil => simp [DeclaresOnceAll]
  | cons t rest ih => rw [List.cons_append, DeclaresOnceAll, DeclaresOnceAll, ih, and_assoc]

-- A block gives its own names binders of its own and leaves all others alone.
theorem declare_of_not_mem {s : Scope} {next : Nat} {constants : List (String × Tree)} {x : String}
    (other : x ∉ constants.map Prod.fst) : declare s next constants x = s x := by
  induction constants generalizing s next with
  | nil => rfl
  | cons constant rest ih =>
      rw [List.map_cons, List.mem_cons, not_or] at other
      rw [declare, ih other.2, Scope.bind, if_neg other.1]

theorem declare_of_mem {s : Scope} {next : Nat} {constants : List (String × Tree)} {x : String}
    (member : x ∈ constants.map Prod.fst) :
    ∃ binder, declare s next constants x = some binder ∧ next ≤ binder := by
  induction constants generalizing s next with
  | nil => cases member
  | cons constant rest ih =>
      obtain ⟨name, t⟩ := constant
      by_cases later : x ∈ rest.map Prod.fst
      · obtain ⟨binder, found, order⟩ := @ih (s.bind name next) (next + 1 + t.binders) later
        exact ⟨binder, found, by omega⟩
      · have same : x = name := by simpa [later] using member
        refine ⟨next, ?_, Nat.le_refl _⟩
        rw [declare, declare_of_not_mem later, Scope.bind, if_pos same]

/-! ## Nodes that bind nothing -/

/-- Whether a property of rows of trees sees nothing of a node that binds no names but the trees
in it, in the order of the text. -/
structure Transparent {α : Sort*} (see : List Tree → α) : Prop where
  string : ∀ us text ts, see (us ++ .string text :: ts) = see (us ++ ts)
  object : ∀ fields ts, see (.object fields :: ts) = see (fields.map Prod.snd ++ ts)
  field : ∀ t x ts, see (.field t x :: ts) = see (t :: ts)
  index : ∀ t key ts, see (.index t key :: ts) = see (t :: key :: ts)
  call : ∀ t args ts, see (.call t args :: ts) = see (t :: (args ++ ts))
  construct : ∀ t args ts, see (.construct t args :: ts) = see (t :: (args ++ ts))
  unary : ∀ op t ts, see (.unary op t :: ts) = see (t :: ts)
  binary : ∀ op l r ts, see (.binary op l r :: ts) = see (l :: r :: ts)
  conditional : ∀ g y n ts, see (.conditional g y n :: ts) = see (g :: y :: n :: ts)
  sequence : ∀ parts ts, see (.sequence parts :: ts) = see (parts ++ ts)

theorem transparent_bindersAll : Transparent bindersAll where
  string us text ts := by simp [bindersAll_append, bindersAll, binders]
  object fields ts := by rw [bindersAll, binders, bindersFields_eq, bindersAll_append]
  field t x ts := rfl
  index t key ts := Nat.add_assoc _ _ _
  call t args ts := by
    rw [bindersAll, binders, bindersAll, bindersAll_append, Nat.add_assoc]
  construct t args ts := by
    rw [bindersAll, binders, bindersAll, bindersAll_append, Nat.add_assoc]
  unary op t ts := rfl
  binary op l r ts := Nat.add_assoc _ _ _
  conditional g y n ts := by simp only [bindersAll, binders, Nat.add_assoc]
  sequence parts ts := by rw [bindersAll, binders, bindersAll_append]

theorem transparent_usesAll (s : Scope) (next : Nat) : Transparent (usesAll s next) where
  string us text ts := by simp [usesAll_append, usesAll, uses, binders]
  object fields ts := by
    rw [usesAll, uses, binders, usesFields_eq, bindersFields_eq, usesAll_append]
  field t x ts := rfl
  index t key ts := by simp only [usesAll, uses, binders, List.append_assoc, Nat.add_assoc]
  call t args ts := by
    simp only [usesAll, uses, binders, usesAll_append, List.append_assoc, Nat.add_assoc]
  construct t args ts := by
    simp only [usesAll, uses, binders, usesAll_append, List.append_assoc, Nat.add_assoc]
  unary op t ts := rfl
  binary op l r ts := by simp only [usesAll, uses, binders, List.append_assoc, Nat.add_assoc]
  conditional g y n ts := by simp only [usesAll, uses, binders, List.append_assoc, Nat.add_assoc]
  sequence parts ts := by rw [usesAll, uses, binders, usesAll_append]

theorem transparent_declaresOnceAll : Transparent DeclaresOnceAll where
  string us text ts := by simp [declaresOnceAll_append, DeclaresOnceAll, DeclaresOnce]
  object fields ts := by
    rw [DeclaresOnceAll, DeclaresOnce, declaresOnceFields_eq, declaresOnceAll_append]
  field t x ts := rfl
  index t key ts := by simp only [DeclaresOnceAll, DeclaresOnce, and_assoc]
  call t args ts := by simp only [DeclaresOnceAll, DeclaresOnce, declaresOnceAll_append, and_assoc]
  construct t args ts := by simp only [DeclaresOnceAll, DeclaresOnce, declaresOnceAll_append, and_assoc]
  unary op t ts := rfl
  binary op l r ts := by simp only [DeclaresOnceAll, DeclaresOnce, and_assoc]
  conditional g y n ts := by simp only [DeclaresOnceAll, DeclaresOnce, and_assoc]
  sequence parts ts := by rw [DeclaresOnceAll, DeclaresOnce, declaresOnceAll_append]

end Tree

/-- The trees in a suffix. -/
def Suffix.parts : Suffix → List Tree
  | .field _ => []
  | .index key => [key]
  | .args parts => parts

section
variable {α : Sort*} {see : List Tree → α}

theorem see_onto (transparent : Tree.Transparent see) (waiting : Nat) (t : Tree) (suffix : Suffix)
    (ts : List Tree) :
    see ((suffix.onto (waiting, t)).2 :: ts) = see (t :: (suffix.parts ++ ts)) := by
  cases suffix with
  | field x => exact transparent.field t x ts
  | index key => exact transparent.index t key ts
  | args parts =>
      cases waiting with
      | zero => exact transparent.call t parts ts
      | succ waiting => exact transparent.construct t parts ts

-- Whichever `new` an argument list belongs to, it stands in the same place of the text.
theorem see_spine (transparent : Tree.Transparent see) (s : Spine) (ts : List Tree) :
    see (s.tree :: ts) = see (s.base :: (s.suffixes.flatMap Suffix.parts ++ ts)) := by
  rw [Spine.tree]
  generalize s.news = waiting
  generalize s.base = t
  induction s.suffixes generalizing waiting t with
  | nil => rfl
  | cons suffix others ih =>
      have step := see_onto transparent waiting t suffix (others.flatMap Suffix.parts ++ ts)
      rw [List.foldl_cons, ih, step, List.flatMap_cons, List.append_assoc]

end
end CallReplacement.JavaScript
