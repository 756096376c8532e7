import CallReplacement.Proofs.Source.Postorder
import Mathlib.Data.List.Basic

/-!
Rebuilding a source tree node by node. Every node is rebuilt in the same way: its children from the
first to the last, and then the node itself, which takes the rebuilt children in the place of its
own and is passed through the callback.
-/

namespace CallReplacement.SourceExpr

/-- The node with other children. It says nothing about lists of another length. -/
def withChildren : SourceExpr → List SourceExpr → SourceExpr
  | .call member none _ generics range, args => .call member none args generics range
  | .call member (some _) _ generics range, target :: args =>
      .call member (some target) args generics range
  | .apply _ _ type range, callee :: args => .apply callee args type range
  | .get _ field type range, [target] => .get target field type range
  | .lambda params _ range, [body] => .lambda params body range
  | .bind name type _ _ range, [value, body] => .bind name type value body range
  | .conditional _ _ _ range, [guard, yes, no] => .conditional guard yes no range
  | .sequence _ range, exprs => .sequence exprs range
  | .record fields type range, values => .record ((fields.map Prod.fst).zip values) type range
  | .binary op _ _ type range, [left, right] => .binary op left right type range
  | .logical op _ _ range, [left, right] => .logical op left right range
  | .unary op _ type range, [operand] => .unary op operand type range
  | .coerce _ type range, [operand] => .coerce operand type range
  | e, _ => e

/-- Whether two nodes are of one kind and differ in nothing beside their children. A call keeps its
receiver or stays without one, and a record keeps the names of its fields. -/
inductive SameFields : SourceExpr → SourceExpr → Prop
  | const {value type range} : SameFields (.const value type range) (.const value type range)
  | ident {name type range} : SameFields (.ident name type range) (.ident name type range)
  | call {member receiver receiver' args args' generics range} :
      receiver.isSome = receiver'.isSome →
      SameFields (.call member receiver args generics range)
        (.call member receiver' args' generics range)
  | apply {callee callee' args args' type range} :
      SameFields (.apply callee args type range) (.apply callee' args' type range)
  | get {target target' field type range} :
      SameFields (.get target field type range) (.get target' field type range)
  | lambda {params body body' range} :
      SameFields (.lambda params body range) (.lambda params body' range)
  | bind {name type value value' body body' range} :
      SameFields (.bind name type value body range) (.bind name type value' body' range)
  | conditional {guard guard' yes yes' no no' range} :
      SameFields (.conditional guard yes no range) (.conditional guard' yes' no' range)
  | sequence {exprs exprs' range} : SameFields (.sequence exprs range) (.sequence exprs' range)
  | record {fields fields' type range} : fields.map Prod.fst = fields'.map Prod.fst →
      SameFields (.record fields type range) (.record fields' type range)
  | binary {op left left' right right' type range} :
      SameFields (.binary op left right type range) (.binary op left' right' type range)
  | logical {op left left' right right' range} :
      SameFields (.logical op left right range) (.logical op left' right' range)
  | unary {op operand operand' type range} :
      SameFields (.unary op operand type range) (.unary op operand' type range)
  | coerce {operand operand' type range} :
      SameFields (.coerce operand type range) (.coerce operand' type range)

-- One row of cases for both: the new children stand in the node, and nothing else in it is new.
theorem withChildren_spec {e : SourceExpr} {parts : List SourceExpr}
    (length : e.children.length = parts.length) :
    (e.withChildren parts).children = parts ∧ SameFields (e.withChildren parts) e := by
  cases e with
  | const | ident =>
      obtain rfl := List.length_eq_zero_iff.mp length.symm
      exact ⟨rfl, by constructor⟩
  | call member receiver args generics range =>
      cases receiver with
      | none => exact ⟨rfl, .call rfl⟩
      | some target =>
          cases parts with
          | nil => cases length
          | cons target parts => exact ⟨rfl, .call rfl⟩
  | apply =>
      cases parts with
      | nil => cases length
      | cons callee parts => exact ⟨rfl, .apply⟩
  | sequence => exact ⟨rfl, .sequence⟩
  | record fields =>
      have names : (fields.map Prod.fst).length = parts.length := by simp [← length, children]
      exact ⟨List.map_snd_zip (Nat.le_of_eq names.symm), .record (List.map_fst_zip (Nat.le_of_eq names))⟩
  | get | lambda | unary | coerce =>
      obtain ⟨part, rfl⟩ := List.length_eq_one_iff.mp length.symm
      exact ⟨rfl, by constructor⟩
  | bind | binary | logical =>
      obtain ⟨first, second, rfl⟩ := List.length_eq_two.mp length.symm
      exact ⟨rfl, by constructor⟩
  | conditional =>
      obtain ⟨first, second, third, rfl⟩ := List.length_eq_three.mp length.symm
      exact ⟨rfl, .conditional⟩

theorem children_withChildren {e : SourceExpr} {parts : List SourceExpr}
    (length : e.children.length = parts.length) : (e.withChildren parts).children = parts :=
  (withChildren_spec length).1

namespace SameFields

theorem withChildren {e : SourceExpr} {parts : List SourceExpr}
    (length : e.children.length = parts.length) : SameFields (e.withChildren parts) e :=
  (withChildren_spec length).2

theorem range {e e' : SourceExpr} (same : SameFields e e') : e.range = e'.range := by
  cases same <;> rfl

/-- A node is made of its fields and its children. -/
theorem eq_of_children {e e' : SourceExpr} (same : SameFields e e')
    (children : e.children = e'.children) : e = e' := by
  cases same with
  | @call _ receiver receiver' _ _ _ _ receivers =>
      cases receiver with
      | none =>
          obtain rfl : receiver' = none := by simpa using receivers.symm
          simpa [SourceExpr.children] using children
      | some target =>
          obtain ⟨target', rfl⟩ := Option.isSome_iff_exists.mp receivers.symm
          simpa [SourceExpr.children] using children
  | @record fields fields' _ _ names =>
      have unzipped : fields.unzip = fields'.unzip := by
        rw [List.unzip_eq_map, List.unzip_eq_map]
        exact Prod.ext names children
      rw [← List.zip_unzip fields, unzipped, List.zip_unzip]
  | const | ident => rfl
  | _ => simpa [SourceExpr.children] using children

end SameFields

section
variable {m : Type → Type} [Monad m] [LawfulMonad m] (f : SourceExpr → m SourceExpr)

theorem rebuildAll_eq (exprs : List SourceExpr) :
    rebuildAll f exprs = exprs.mapM (rebuildM f) := by
  induction exprs with
  | nil => simp [rebuildAll]
  | cons e rest ih => simp [rebuildAll, ih]

theorem rebuildFields_eq (fields : List (String × SourceExpr)) :
    rebuildFields f fields =
      (fields.map Prod.snd).mapM (rebuildM f) >>= fun values =>
        pure ((fields.map Prod.fst).zip values) := by
  induction fields with
  | nil => simp [rebuildFields]
  | cons field rest ih => simp [rebuildFields, ih]

/-- A node is rebuilt after its children, and these from the first to the last. -/
theorem rebuildM_eq (e : SourceExpr) :
    e.rebuildM f = e.children.mapM (rebuildM f) >>= fun parts => f (e.withChildren parts) := by
  cases e with
  | call member receiver args generics range =>
      cases receiver <;>
        simp [rebuildM, rebuildOption, rebuildAll_eq, children, withChildren]
  | record fields type range => simp [rebuildM, rebuildFields_eq, children, withChildren]
  | _ => simp [rebuildM, rebuildAll_eq, children, withChildren]

end

theorem rebuild_eq (f : SourceExpr → SourceExpr) (e : SourceExpr) :
    e.rebuild f = f (e.withChildren (e.children.map (rebuild f))) := by
  unfold rebuild
  rw [rebuildM_eq]
  simp

end CallReplacement.SourceExpr
