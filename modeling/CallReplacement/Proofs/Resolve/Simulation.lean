import CallReplacement.Proofs.Expr.Layer
import CallReplacement.Proofs.Resolve.Assembly
import CallReplacement.Proofs.Source.SameCode

/-!
Two runs side by side. Two trees with the same code are lowered under two resolvers; if the second
resolver follows the first at every pair of related call sites, the second run follows the first
one: it succeeds where the first succeeds, with a related result and an entry for an entry in the
log. What the expressions of the two runs have in common is a parameter, so that it may be much or
nothing.
-/

namespace CallReplacement

/-- Whether two call sites are calls of one member with related parts. -/
structure CallSite.Like (R : Expr → Expr → Prop) (s t : CallSite) : Prop where
  owner : s.owner = t.owner
  member : s.member = t.member
  kind : s.kind = t.kind
  receiver : Option.Rel R s.receiver t.receiver
  args : List.Forall₂ R s.args t.args

/-- Whether the second computation succeeds where the first one does, with a related value and a
related entry for each entry of the log. -/
def Logged.Follows {α β : Type} (V : α → β → Prop) (K : ResolvedCall → ResolvedCall → Prop)
    (x : Logged α) (y : Logged β) : Prop :=
  ∀ a log, x = .ok (a, log) →
    ∃ b log', y = .ok (b, log') ∧ V a b ∧ List.Forall₂ K log.calls log'.calls

/-- Whether the second resolver answers related call sites as the first one does: an answer of the
first has a related answer, and a related entry for the log. -/
def Resolver.Follows (R : Expr → Expr → Prop) (K : ResolvedCall → ResolvedCall → Prop)
    (r r' : Resolver) : Prop :=
  ∀ s t, s.Like R t → ∀ x, r.resolve s = .ok x →
    ∃ y, r'.resolve t = .ok y ∧ R x.expr y.expr ∧ K ⟨s, x.handler⟩ ⟨t, y.handler⟩

namespace Logged

variable {α β γ δ : Type} {V : α → β → Prop} {W : γ → δ → Prop}
  {K : ResolvedCall → ResolvedCall → Prop}

theorem follows_pure {a : α} {b : β} (related : V a b) : Follows V K (pure a) (pure b) := by
  intro c log succeeded
  cases succeeded
  exact ⟨b, Log.empty, rfl, related, .nil⟩

theorem Follows.bind {x : Logged α} {y : Logged β} {f : α → Logged γ} {g : β → Logged δ}
    (first : Follows V K x y)
    (next : ∀ a log b, x = .ok (a, log) → V a b → Follows W K (f a) (g b)) :
    Follows W K (x >>= f) (y >>= g) := by
  intro c log succeeded
  obtain ⟨a, before, after, hx, hf, rfl⟩ := (bind_eq_ok_iff x f c log).mp succeeded
  obtain ⟨b, before', hy, related, earlier⟩ := first a before hx
  obtain ⟨d, after', hg, result, later⟩ := next a before b hx related c after hf
  exact ⟨d, before' ++ after', (bind_eq_ok_iff y g d _).mpr ⟨b, before', after', hy, hg, rfl⟩,
    result, List.rel_append earlier later⟩

theorem Follows.andPure {x : Logged α} {y : Logged β} {f : α → γ} {g : β → δ}
    (first : Follows V K x y) (last : ∀ a b, V a b → W (f a) (g b)) :
    Follows W K (x >>= fun a => pure (f a)) (y >>= fun b => pure (g b)) :=
  first.bind fun a _ b _ related => follows_pure (last a b related)

end Logged

open Logged

section
variable {R : Expr → Expr → Prop} {K : ResolvedCall → ResolvedCall → Prop} {r r' : Resolver}

theorem Resolver.Follows.lowerCall (follows : r.Follows R K r') {s t : CallSite}
    (like : s.Like R t) : (r.lowerCall s).Follows R K (r'.lowerCall t) := by
  intro e log succeeded
  unfold Resolver.lowerCall at succeeded
  split at succeeded
  · next resolution resolved =>
    cases succeeded
    obtain ⟨other, resolved', related, entry⟩ := follows s t like resolution resolved
    refine ⟨other.expr, r'.entry t other.handler, ?_, related, .cons entry .nil⟩
    unfold Resolver.lowerCall
    rw [resolved']
  · cases succeeded

namespace SourceExpr

theorem siteOf?_like {e e' : SourceExpr} {parts parts' : List Expr} (same : SameNode e e')
    (related : List.Forall₂ R parts parts') :
    Option.Rel (CallSite.Like R) (e.siteOf? parts) (e'.siteOf? parts') := by
  cases same with
  | @call member member' receiver receiver' args args' generics generics' range range' same present =>
      cases receiver with
      | none =>
          obtain rfl := Option.isNone_iff_eq_none.mp (by simpa using present.symm)
          exact .some ⟨same.entity, same.memberName, same.kind, .none, related⟩
      | some target =>
          obtain ⟨target', rfl⟩ := Option.isSome_iff_exists.mp present.symm
          cases related with
          | nil => exact .none
          | cons head tail => exact .some ⟨same.entity, same.memberName, same.kind, .some head, tail⟩
  | _ => exact .none

/-- Related parts make a layer, in nodes that differ in annotations at most. -/
theorem layer_assemble {e e' : SourceExpr} {parts parts' : List Expr} (same : SameNode e e')
    (fits : Fits e parts) (related : List.Forall₂ R parts parts') :
    Expr.Layer R (e.assemble parts) (e'.assemble parts') := by
  cases same with
  | const =>
      cases fits
      exact .literal
  | ident =>
      cases fits
      exact .ident rfl
  | call => cases fits
  | apply =>
      cases fits
      rcases related with _ | ⟨callee, args⟩
      exact .call callee args
  | lambda names =>
      cases fits
      rcases related with _ | ⟨body, ⟨⟩⟩
      exact .lambda (by simpa [Function.comp_def] using names) body
  | bind =>
      cases fits
      rcases related with _ | ⟨value, _ | ⟨body, ⟨⟩⟩⟩
      exact .bind rfl value body
  | conditional =>
      cases fits
      rcases related with _ | ⟨guard, _ | ⟨yes, _ | ⟨no, ⟨⟩⟩⟩⟩
      exact .conditional guard yes no
  | sequence =>
      cases fits
      exact .sequence related
  | record names =>
      obtain ⟨length⟩ := fits
      have length' := congrArg List.length names
      have across := related.length_eq
      simp only [List.length_map] at length'
      refine .object ?_ ?_
      · rw [List.map_fst_zip, List.map_fst_zip, names] <;> simp <;> omega
      · rw [List.map_snd_zip, List.map_snd_zip]
        · exact related
        all_goals simp; omega
  | get | unary | coerce =>
      cases fits
      rcases related with _ | ⟨operand, ⟨⟩⟩
      constructor
      exact operand
  | binary | logical =>
      cases fits
      rcases related with _ | ⟨left, _ | ⟨right, ⟨⟩⟩⟩
      constructor
      · exact left
      · exact right

section
variable (node : ∀ e f, Expr.Layer R e f → R e f) (follows : r.Follows R K r')
include node follows

theorem finish_follows {e e' : SourceExpr} {parts parts' : List Expr} (same : SameNode e e')
    (length : e.children.length = parts.length) (related : List.Forall₂ R parts parts') :
    (e.finish r parts).Follows R K (e'.finish r' parts') := by
  have sites : Option.Rel (CallSite.Like R) (e.siteOf? parts) (e'.siteOf? parts') :=
    siteOf?_like same related
  have isSome := isSome_siteOf? length
  unfold finish
  generalize e.siteOf? parts = site? at sites isSome ⊢
  generalize e'.siteOf? parts' = site?' at sites ⊢
  cases sites with
  | some like =>
      exact follows.lowerCall like
  | none =>
      have fits := fits_of_length isSome.symm length
      exact follows_pure (node _ _ (layer_assemble same fits related))

omit node follows in
theorem lowerAll_follows {exprs exprs' : List SourceExpr}
    (each : List.Forall₂ (fun e e' => (e.lower r).Follows R K (e'.lower r')) exprs exprs') :
    (lowerAll r exprs).Follows (List.Forall₂ R) K (lowerAll r' exprs') := by
  induction each with
  | nil => exact follows_pure .nil
  | cons head tail ih =>
      exact head.bind fun part _ part' _ first => ih.andPure fun _ _ others => .cons first others

theorem lower_follows {e e' : SourceExpr} (same : SameCode e e') :
    (e.lower r).Follows R K (e'.lower r') := by
  induction e using induction_children generalizing e' with
  | step e ih =>
    rw [lower_eq, lower_eq r' e']
    have below := lowerAll_follows (forall₂_of_mem same.children ih)
    exact below.bind fun parts log parts' lowered related =>
      finish_follows node follows same.root (length_of_lowerAll r lowered) related

end
end SourceExpr

structure Declaration.Like (R : Expr → Expr → Prop) (d d' : Declaration) : Prop where
  name : d.name = d'.name
  isPublic : d.isPublic = d'.isPublic
  body : R d.body d'.body

/-- Whether two modules declare the same names, with related values. -/
structure Module.Like (R : Expr → Expr → Prop) (m n : Module) : Prop where
  sourcePath : m.sourcePath = n.sourcePath
  declarations : List.Forall₂ (Declaration.Like R) m.declarations n.declarations

theorem SourceFile.lowerDeclarations_follows (node : ∀ e f, Expr.Layer R e f → R e f)
    (follows : r.Follows R K r') {declarations declarations' : List SourceDeclaration}
    (same : List.Forall₂ SourceDeclaration.SameCode declarations declarations') :
    (lowerDeclarations r declarations).Follows (List.Forall₂ (Declaration.Like R)) K
      (lowerDeclarations r' declarations') := by
  induction same with
  | nil => exact follows_pure .nil
  | cons head tail ih =>
      have body := SourceExpr.lower_follows node follows head.body
      exact body.bind fun _ _ _ _ first => ih.andPure fun _ _ others =>
        .cons ⟨head.name, head.isPublic, first⟩ others

/-- The second run lowers the file with the same code as the first run does, if its resolver
follows that of the first. -/
theorem SourceFile.lower_follows (node : ∀ e f, Expr.Layer R e f → R e f)
    (follows : r.Follows R K r') {file file' : SourceFile} (same : file.SameCode file') :
    (file.lower r).Follows (Module.Like R) K (file'.lower r') :=
  (lowerDeclarations_follows node follows same.declarations).andPure fun _ _ declarations =>
    ⟨same.path, declarations⟩

end
end CallReplacement
