import CallReplacement.Proofs.Resolve.Logged
import CallReplacement.Proofs.Source.Postorder
import Mathlib.Data.List.Forall2

/-!
Lowering node by node. Every node is lowered in the same way: its children from the first to the
last, and then the node itself, which is put together from the lowered children or, if it is a
call, resolved as the call site that these make up. What lowering does to a tree follows from
this equation by induction over the children.
-/

namespace CallReplacement.SourceExpr

/-- The call site of a call whose receiver and arguments are lowered to `parts`. -/
def siteOf? : SourceExpr → List Expr → Option CallSite
  | .call member none args generics range, parts =>
      some (.ofCall member none parts args generics range)
  | .call member (some _) args generics range, target :: parts =>
      some (.ofCall member (some target) parts args generics range)
  | _, _ => none

/-- The expression that a node becomes whose children are lowered to `parts`. It says nothing
about calls, which become what their handlers answer. -/
def assemble : SourceExpr → List Expr → Expr
  | .const value type range, _ => .literal ⟨(SourceExpr.const value type range).type, range⟩ value
  | .ident name type range, _ => .ident ⟨type, range⟩ ⟨name, type⟩
  | .apply _ _ type range, callee :: args => .call ⟨type, range⟩ .direct callee args
  | .get _ field type range, [target] => .field ⟨type, range⟩ target field
  | .lambda params _ range, [body] =>
      (Expr.function (params.map fun p => ⟨p.name, p.type⟩) body).located range
  | .bind name type _ _ range, [value, body] =>
      (Expr.letIn ⟨name, if type.isAny then value.type else type⟩ value body).located range
  | .conditional _ _ _ range, [guard, yes, no] => (Expr.ifThenElse guard yes no).located range
  | .sequence _ range, exprs => (Expr.inSequence exprs).located range
  | .record fields type range, values => .object ⟨type, range⟩ ((fields.map Prod.fst).zip values)
  | .binary op _ _ type range, [left, right] => .binary ⟨type, range⟩ op left right
  | .logical op _ _ range, [left, right] => (Expr.connective op left right).located range
  | .unary op _ type range, [operand] => .unary ⟨type, range⟩ op operand
  | .coerce _ type range, [operand] => .cast ⟨type, range⟩ operand
  | _, parts => .inSequence parts

/-- Whether a node that is no call has one part for each of its children. -/
inductive Fits : SourceExpr → List Expr → Prop
  | const {value type range} : Fits (.const value type range) []
  | ident {name type range} : Fits (.ident name type range) []
  | apply {callee args type range part parts} :
      args.length = parts.length → Fits (.apply callee args type range) (part :: parts)
  | get {target field type range part} : Fits (.get target field type range) [part]
  | lambda {params body range part} : Fits (.lambda params body range) [part]
  | bind {name type value body range first second} :
      Fits (.bind name type value body range) [first, second]
  | conditional {guard yes no range first second third} :
      Fits (.conditional guard yes no range) [first, second, third]
  | sequence {exprs range parts} :
      exprs.length = parts.length → Fits (.sequence exprs range) parts
  | record {fields type range parts} :
      fields.length = parts.length → Fits (.record fields type range) parts
  | binary {op left right type range first second} :
      Fits (.binary op left right type range) [first, second]
  | logical {op left right range first second} :
      Fits (.logical op left right range) [first, second]
  | unary {op operand type range part} : Fits (.unary op operand type range) [part]
  | coerce {operand type range part} : Fits (.coerce operand type range) [part]

theorem fits_of_length {e : SourceExpr} {parts : List Expr} (noCall : e.isCall = false)
    (length : e.children.length = parts.length) : Fits e parts := by
  cases e with
  | call => cases noCall
  | sequence => exact .sequence length
  | record => exact .record (by simpa [children] using length)
  | const | ident =>
      obtain rfl := List.length_eq_zero_iff.mp length.symm
      constructor
  | get | lambda | unary | coerce =>
      obtain ⟨part, rfl⟩ := List.length_eq_one_iff.mp length.symm
      constructor
  | bind | binary | logical =>
      obtain ⟨first, second, rfl⟩ := List.length_eq_two.mp length.symm
      constructor
  | conditional =>
      obtain ⟨first, second, third, rfl⟩ := List.length_eq_three.mp length.symm
      constructor
  | apply =>
      cases parts with
      | nil => cases length
      | cons part parts => exact .apply (Nat.succ.inj length)

-- A node that is put together keeps its parts and its place.
theorem Fits.children_assemble {e : SourceExpr} {parts : List Expr} (fits : Fits e parts) :
    (e.assemble parts).children = parts := by
  cases fits with
  | record length =>
      rw [assemble, Expr.children, List.map_snd_zip]
      simp [length]
  | _ => rfl

theorem Fits.range_assemble {e : SourceExpr} {parts : List Expr} (fits : Fits e parts) :
    (e.assemble parts).range = e.range := by
  cases fits <;> rfl

/-- The two ways in which a call and its parts make up a call site. -/
inductive SiteOf : SourceExpr → List Expr → CallSite → Prop
  | bare {member args generics range parts} :
      SiteOf (.call member none args generics range) parts
        (.ofCall member none parts args generics range)
  | onReceiver {member receiver args generics range target parts} :
      SiteOf (.call member (some receiver) args generics range) (target :: parts)
        (.ofCall member (some target) parts args generics range)

theorem siteOf_of_eq_some {e : SourceExpr} {parts : List Expr} {site : CallSite}
    (made : e.siteOf? parts = some site) : SiteOf e parts site := by
  unfold siteOf? at made
  split at made <;> cases made
  · exact .bare
  · exact .onReceiver

theorem range_siteOf? {e : SourceExpr} {parts : List Expr} {site : CallSite}
    (made : e.siteOf? parts = some site) : site.range = e.range := by
  cases siteOf_of_eq_some made <;> rfl

-- A call makes up a call site as soon as none of its parts is missing.
theorem isSome_siteOf? {e : SourceExpr} {parts : List Expr}
    (length : e.children.length = parts.length) : (e.siteOf? parts).isSome = e.isCall := by
  cases e with
  | call member receiver args generics range =>
      cases receiver with
      | none => rfl
      | some target =>
          cases parts with
          | nil => cases length
          | cons target parts => rfl
  | _ => rfl

theorem fits_of_siteOf?_eq_none {e : SourceExpr} {parts : List Expr}
    (made : e.siteOf? parts = none) (length : e.children.length = parts.length) : Fits e parts := by
  have isSome := isSome_siteOf? length
  rw [made] at isSome
  exact fits_of_length isSome.symm length

section
variable (r : Resolver)

/-- What is left to do at a node when its children are lowered to `parts`. -/
def finish (e : SourceExpr) (parts : List Expr) : Logged Expr :=
  match e.siteOf? parts with
  | some site => r.lowerCall site
  | none => pure (e.assemble parts)

theorem lowerFields_eq (fields : List (String × SourceExpr)) :
    lowerFields r fields =
      lowerAll r (fields.map Prod.snd) >>= fun values =>
        pure ((fields.map Prod.fst).zip values) := by
  induction fields with
  | nil => simp [lowerFields, lowerAll]
  | cons field rest ih => simp [lowerFields, lowerAll, ih]

/-- A node is lowered after its children, and these from the first to the last. -/
theorem lower_eq (e : SourceExpr) : e.lower r = lowerAll r e.children >>= e.finish r := by
  cases e with
  | call member receiver args generics range =>
      cases receiver with
      | none =>
          simp only [lower, lowerOption, children, pure_bind, Option.toList_none, List.nil_append]
          rfl
      | some target =>
          simp [lower, lowerOption, lowerAll, children, finish, siteOf?]
  | record fields type range =>
      simp only [lower, lowerFields_eq, children, bind_assoc, pure_bind]
      rfl
  | sequence exprs range => rfl
  | _ => simp [lower, lowerAll, children, finish, siteOf?, assemble]

theorem lowerAll_cons_eq_ok {e : SourceExpr} {rest : List SourceExpr} {parts : List Expr}
    {log : Log} (lowered : lowerAll r (e :: rest) = .ok (parts, log)) :
    ∃ part others before after, e.lower r = .ok (part, before) ∧
      lowerAll r rest = .ok (others, after) ∧ parts = part :: others := by
  obtain ⟨part, before, _, first, tail, _⟩ := (Logged.bind_eq_ok_iff _ _ _ _).mp lowered
  obtain ⟨others, after, _, second, done, _⟩ := (Logged.bind_eq_ok_iff _ _ _ _).mp tail
  obtain ⟨rfl, _⟩ := (Logged.pure_eq_ok_iff _ _ _).mp done
  exact ⟨part, others, before, after, first, second, rfl⟩

/-- What lowering makes of each expression of a row holds all along the row. -/
theorem forall₂_of_lowerAll {R : SourceExpr → Expr → Prop} {exprs : List SourceExpr}
    {parts : List Expr} {log : Log} (lowered : lowerAll r exprs = .ok (parts, log))
    (each : ∀ e ∈ exprs, ∀ part log, e.lower r = .ok (part, log) → R e part) :
    List.Forall₂ R exprs parts := by
  induction exprs generalizing parts log with
  | nil =>
      obtain ⟨rfl, _⟩ := (Logged.pure_eq_ok_iff _ _ _).mp lowered
      exact .nil
  | cons e rest ih =>
      obtain ⟨part, others, before, after, first, second, rfl⟩ := lowerAll_cons_eq_ok r lowered
      have tail := ih second fun other member => each other (List.mem_cons_of_mem _ member)
      exact .cons (each e List.mem_cons_self part before first) tail

theorem length_of_lowerAll {exprs : List SourceExpr} {parts : List Expr} {log : Log}
    (lowered : lowerAll r exprs = .ok (parts, log)) : exprs.length = parts.length := by
  have row : List.Forall₂ (fun _ _ => True) exprs parts :=
    forall₂_of_lowerAll r lowered fun _ _ _ _ _ => trivial
  exact row.length_eq

/-- A row is lowered if each of its expressions is. -/
theorem lowerAll_of_forall {R : SourceExpr → Expr → Prop} {exprs : List SourceExpr}
    (each : ∀ e ∈ exprs, ∃ part log, e.lower r = .ok (part, log) ∧ R e part) :
    ∃ parts log, lowerAll r exprs = .ok (parts, log) ∧ List.Forall₂ R exprs parts := by
  induction exprs with
  | nil => exact ⟨[], Log.empty, rfl, .nil⟩
  | cons e rest ih =>
      obtain ⟨part, before, first, related⟩ := each e List.mem_cons_self
      obtain ⟨others, after, second, tail⟩ :=
        ih fun other member => each other (List.mem_cons_of_mem _ member)
      have ending : (lowerAll r rest >>= fun rest => pure (part :: rest)) =
          .ok (part :: others, after ++ Log.empty) :=
        (Logged.bind_eq_ok_iff _ _ _ _).mpr ⟨others, after, _, second, rfl, rfl⟩
      exact ⟨part :: others, _, (Logged.bind_eq_ok_iff _ _ _ _).mpr
        ⟨part, before, _, first, ending, rfl⟩, .cons related tail⟩

/-- The call site that handlers see at a call, once its receiver and arguments can be lowered. -/
def site? (e : SourceExpr) : Option CallSite :=
  match lowerAll r e.children with
  | .ok (parts, _) => e.siteOf? parts
  | .error _ => none

variable {r}

theorem site?_eq_some_iff {e : SourceExpr} {site : CallSite} :
    e.site? r = some site ↔
      ∃ parts log, lowerAll r e.children = .ok (parts, log) ∧ e.siteOf? parts = some site := by
  unfold site?
  cases lowerAll r e.children with
  | error failure =>
      constructor
      · intro found
        cases found
      · rintro ⟨_, _, lowered, _⟩
        cases lowered
  | ok answer =>
      obtain ⟨parts, log⟩ := answer
      constructor
      · intro found
        exact ⟨parts, log, rfl, found⟩
      · rintro ⟨_, _, lowered, found⟩
        cases lowered
        exact found

/-- A call becomes what its call site is resolved to. -/
theorem lower_of_site? {e : SourceExpr} {site : CallSite} {resolution : Resolution}
    (found : e.site? r = some site) (resolved : r.resolve site = .ok resolution) :
    ∃ log, e.lower r = .ok (resolution.expr, log) := by
  obtain ⟨parts, log, lowered, made⟩ := site?_eq_some_iff.mp found
  have finished : e.finish r parts = .ok (resolution.expr, r.entry site resolution.handler) := by
    simp only [finish, made, Resolver.lowerCall, resolved]
    rfl
  rw [lower_eq]
  exact ⟨_, (Logged.bind_eq_ok_iff _ _ _ _).mpr ⟨parts, log, _, lowered, finished, rfl⟩⟩

end
end CallReplacement.SourceExpr
