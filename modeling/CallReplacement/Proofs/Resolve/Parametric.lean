import CallReplacement.Proofs.Resolve.Decision
import CallReplacement.Proofs.Resolve.Simulation
import CallReplacement.Resolve.Standard

/-!
Handlers that pass the parts of a call on without looking into them. Such a handler asks for the
called member, for the number of arguments and for the presence of a receiver; at related call
sites it gives answers of the same kind, made of related parts. The built-in replacements are of
this form, and so is the call as written; a resolver whose handlers are all of this form follows
itself.
-/

namespace CallReplacement

open CallReplacement.Expr (Congruent)

/-- Whether two answers are of the same kind, with related replacements. -/
inductive Answers (R : Expr → Expr → Prop) :
    Except Failure (Option Expr) → Except Failure (Option Expr) → Prop
  | declined : Answers R (.ok none) (.ok none)
  | replaced {e f : Expr} : R e f → Answers R (.ok (some e)) (.ok (some f))
  | failed {cause cause' : Failure} : Answers R (.error cause) (.error cause')

theorem Answers.declined_iff {R : Expr → Expr → Prop}
    {answer answer' : Except Failure (Option Expr)} (answers : Answers R answer answer') :
    answer = .ok none ↔ answer' = .ok none := by
  cases answers <;> simp

/-- Whether a handler answers related call sites with related answers. -/
def Replacer.Parametric (R : Expr → Expr → Prop) (options : Options) (replace : Replacer) : Prop :=
  ∀ s t : CallSite, s.Like R t → Answers R (replace options s) (replace options t)

section
variable {R : Expr → Expr → Prop} {options : Options}

namespace Builtins

theorem mem_register {t : Builtins} {e old : Builtin} (member : old ∈ (t.register e).entries) :
    old = e ∨ old ∈ t.entries := by
  have behind : ∀ entries, old ∈ register.insertBehind e entries → old = e ∨ old ∈ entries := by
    intro entries inside
    induction entries with
    | nil => exact .inl (List.mem_singleton.mp inside)
    | cons first rest ih =>
        rw [register.insertBehind] at inside
        split at inside
        · simp only [List.mem_cons] at inside ⊢
          tauto
        · rcases List.mem_cons.mp inside with rfl | later
          · exact .inr List.mem_cons_self
          · exact (ih later).imp_right (List.mem_cons_of_mem first)
  unfold register at member
  split at member
  · obtain ⟨entry, inTable, rfl⟩ := List.mem_map.mp member
    split
    · exact .inl rfl
    · exact .inr inTable
  · exact behind _ member

theorem mem_registerAll {t : Builtins} {es : List Builtin} {e : Builtin}
    (member : e ∈ (t.registerAll es).entries) : e ∈ t.entries ∨ e ∈ es := by
  induction es generalizing t with
  | nil => exact .inl member
  | cons first rest ih =>
      rcases ih (t := t.register first) member with inTable | later
      · rcases mem_register inTable with rfl | old
        · exact .inr List.mem_cons_self
        · exact .inl old
      · exact .inr (List.mem_cons_of_mem first later)

/-- What the entries of the standard table are, one case for each kind of handler. -/
inductive StandardEntry : Builtin → Prop
  | forward {owner member object function : String} {allowed : List Nat} :
      owner ≠ Standard.Random.owner →
      StandardEntry ⟨owner, member, forward object function allowed⟩
  | pi : StandardEntry ⟨Standard.mathOwner, "PI", Standard.pi⟩
  | construct :
      StandardEntry ⟨Standard.Random.owner, constructorName, Standard.Random.construct⟩
  | next : StandardEntry ⟨Standard.Random.owner, "Next", Standard.Random.next⟩
  | nextDouble : StandardEntry ⟨Standard.Random.owner, "NextDouble", Standard.Random.nextDouble⟩
  | isNullOrEmpty :
      StandardEntry ⟨Standard.Strings.owner, "IsNullOrEmpty", Standard.Strings.isNullOrEmpty⟩
  | length : StandardEntry ⟨Standard.Strings.owner, "Length", Standard.Strings.length⟩
  | method {member function : String} :
      StandardEntry ⟨Standard.Strings.owner, member, Standard.Strings.method function⟩

theorem standardEntry_of_mem {e : Builtin} (inTable : e ∈ standard.entries) : StandardEntry e := by
  have random : ∀ entry ∈ Standard.Random.entries, StandardEntry entry := by
    simp only [Standard.Random.entries, List.forall_mem_cons]
    exact ⟨.construct, .next, .nextDouble, List.forall_mem_nil _⟩
  have math : ∀ entry ∈ Standard.mathEntries, StandardEntry entry := by
    have apart : Standard.mathOwner ≠ Standard.Random.owner := by decide
    simp only [Standard.mathEntries, List.forall_mem_cons]
    exact ⟨.forward apart, .forward apart, .forward apart, .forward apart, .forward apart,
      .forward apart, .forward apart, .pi, List.forall_mem_nil _⟩
  have console : ∀ entry ∈ Standard.consoleEntries, StandardEntry entry := by
    simp only [Standard.consoleEntries, List.forall_mem_cons]
    exact ⟨.forward (by decide), List.forall_mem_nil _⟩
  have strings : ∀ entry ∈ Standard.Strings.entries, StandardEntry entry := by
    simp only [Standard.Strings.entries, List.forall_mem_cons]
    exact ⟨.isNullOrEmpty, .length, .method, .method, List.forall_mem_nil _⟩
  rcases mem_registerAll inTable with none | listed
  · cases none
  · simp only [List.mem_append] at listed
    rcases listed with ((listed | listed) | listed) | listed
    · exact random e listed
    · exact math e listed
    · exact console e listed
    · exact strings e listed

/-- A table passes parts on if each of its entries does. -/
theorem parametric_replace (t : Builtins)
    (each : ∀ entry ∈ t.entries, Replacer.Parametric R options entry.replace) :
    Replacer.Parametric R options t.replace := by
  intro s s' like
  unfold replace
  rw [like.owner, like.member]
  split
  · next replace found =>
    obtain ⟨entry, first, rfl⟩ := Option.map_eq_some_iff.mp found
    exact each entry (List.mem_of_find?_eq_some first) s s' like
  · exact .declined

variable (congruent : Congruent R)
include congruent

theorem globalMember_related (object member : String) (type type' : ValueType) :
    R (globalMember object member type) (globalMember object member type') :=
  congruent.node (.field (congruent.named object _ _))

theorem globalCall_related (object member : String) {args args' : List Expr}
    (related : List.Forall₂ R args args') (type type' : ValueType) :
    R (globalCall object member args type) (globalCall object member args' type') :=
  congruent.node (.call (globalMember_related congruent object member _ _) related)

theorem parametric_forward (object member : String) (allowed : List Nat) :
    Replacer.Parametric R options (forward object member allowed) := by
  intro s t like
  unfold forward
  rw [like.args.length_eq]
  split
  · exact .replaced (globalCall_related congruent object member like.args _ _)
  · exact .failed

end Builtins

namespace Standard

variable (congruent : Congruent R)
include congruent

theorem parametric_pi : Replacer.Parametric R options pi := by
  intro s t like
  unfold pi
  have args := like.args
  generalize s.args = given at args ⊢
  generalize t.args = given' at args ⊢
  cases args with
  | nil => exact .replaced (Builtins.globalMember_related congruent "Math" "PI" _ _)
  | cons => exact .failed

namespace Random

theorem parametric_construct : Replacer.Parametric R options construct := by
  intro s t like
  unfold construct
  have args := like.args
  generalize s.args = given at args ⊢
  generalize t.args = given' at args ⊢
  have empty : R (.object (.typed s.returnType) []) (.object (.typed t.returnType) []) :=
    congruent.node (.object rfl .nil)
  rcases args with _ | ⟨first, _ | ⟨second, others⟩⟩
  · exact .replaced empty
  · exact .replaced empty
  · exact .failed

theorem parametric_next : Replacer.Parametric R options next := by
  intro s t like
  unfold next
  have args := like.args
  generalize s.args = given at args ⊢
  generalize t.args = given' at args ⊢
  have zero := congruent.ofLiteral (.int 0)
  have largest := congruent.ofLiteral (.int maxInt)
  rcases args with _ | ⟨first, _ | ⟨second, _ | ⟨third, others⟩⟩⟩
  · exact .replaced (congruent.node (.raw (.cons zero (.cons largest .nil))))
  · exact .replaced (congruent.node (.raw (.cons zero (.cons first .nil))))
  · exact .replaced (congruent.node (.raw (.cons first (.cons second .nil))))
  · exact .failed

theorem parametric_nextDouble : Replacer.Parametric R options nextDouble := by
  intro s t like
  unfold nextDouble
  have args := like.args
  generalize s.args = given at args ⊢
  generalize t.args = given' at args ⊢
  cases args with
  | nil => exact .replaced (Builtins.globalCall_related congruent "Math" "random" .nil _ _)
  | cons => exact .failed

end Random

namespace Strings

/-- The test of a text for having no characters. -/
def emptyTest (arg : Expr) : Expr :=
  .raw (.typed .boolean) (if isRepeatable arg then inlineTest else boundTest) [arg]

-- This replacement looks into its argument, to tell whether it may be written twice.
omit congruent in
theorem parametric_isNullOrEmpty (tested : ∀ e f, R e f → R (emptyTest e) (emptyTest f)) :
    Replacer.Parametric R options isNullOrEmpty := by
  intro s t like
  unfold isNullOrEmpty
  have args := like.args
  generalize s.args = given at args ⊢
  generalize t.args = given' at args ⊢
  rcases args with _ | ⟨first, _ | ⟨second, others⟩⟩
  · exact .failed
  · exact .replaced (tested _ _ first)
  · exact .failed

theorem parametric_length : Replacer.Parametric R options length := by
  intro s t like
  unfold length
  have args := like.args
  have receiver := like.receiver
  generalize s.args = given at args ⊢
  generalize t.args = given' at args ⊢
  generalize s.receiver = target at receiver ⊢
  generalize t.receiver = target' at receiver ⊢
  cases receiver with
  | none => cases args <;> exact .failed
  | some related =>
      cases args with
      | nil => exact .replaced (congruent.node (.field related))
      | cons => exact .failed

theorem parametric_method (name : String) : Replacer.Parametric R options (method name) := by
  intro s t like
  unfold method
  have args := like.args
  have receiver := like.receiver
  generalize s.args = given at args ⊢
  generalize t.args = given' at args ⊢
  generalize s.receiver = target at receiver ⊢
  generalize t.receiver = target' at receiver ⊢
  cases receiver with
  | none => cases args <;> exact .failed
  | some related =>
      rcases args with _ | ⟨first, _ | ⟨second, others⟩⟩
      · exact .replaced (congruent.node (.call (congruent.node (.field related)) .nil))
      · exact .declined
      · exact .failed

end Strings
end Standard

/-- The built-in replacements pass parts on, if the test of a text does. -/
theorem Builtins.parametric_standard (congruent : Congruent R)
    (tested : ∀ e f, R e f → R (Standard.Strings.emptyTest e) (Standard.Strings.emptyTest f)) :
    Replacer.Parametric R options Builtins.standard.replace := by
  refine parametric_replace standard fun entry inTable => ?_
  cases standardEntry_of_mem inTable with
  | forward => exact parametric_forward congruent _ _ _
  | pi => exact Standard.parametric_pi congruent
  | construct => exact Standard.Random.parametric_construct congruent
  | next => exact Standard.Random.parametric_next congruent
  | nextDouble => exact Standard.Random.parametric_nextDouble congruent
  | isNullOrEmpty => exact Standard.Strings.parametric_isNullOrEmpty tested
  | length => exact Standard.Strings.parametric_length congruent
  | method => exact Standard.Strings.parametric_method congruent _

/-- Whether two entries of logs are of calls to one owner, resolved by the same handler. -/
structure ResolvedCall.Alike (c d : ResolvedCall) : Prop where
  handler : c.handler = d.handler
  owner : c.site.owner = d.site.owner

/-! Calls as they are written, and the outcome of a call site. -/

namespace CallSite

variable (congruent : Congruent R) {s t : CallSite}
include congruent

theorem Like.target (like : s.Like R t) : R s.target t.target := by
  have receiver := like.receiver
  unfold CallSite.target ownerName
  rw [like.owner]
  generalize s.receiver = given at receiver ⊢
  generalize t.receiver = given' at receiver ⊢
  cases receiver with
  | none => exact congruent.named _ _ _
  | some related => exact related

theorem Like.asWritten (like : s.Like R t) : R s.asWritten t.asWritten := by
  have target := like.target congruent
  have args := like.args
  have isEmpty : s.args.isEmpty = t.args.isEmpty := by
    rw [Bool.eq_iff_iff, List.isEmpty_iff_length_eq_zero, List.isEmpty_iff_length_eq_zero,
      args.length_eq]
  unfold CallSite.asWritten isConstructor ownerName
  rw [like.kind, like.member, like.owner, isEmpty]
  refine congruent.located _ _ ?_
  split
  · exact congruent.node (.call (congruent.named _ _ _) args)
  · split
    · exact congruent.node (.field target)
    · exact congruent.node (.call (congruent.node (.field target)) args)

omit congruent in
theorem place_eq_withNote (s : CallSite) (e : Expr) : ∃ note, s.place e = e.withNote note := by
  unfold place
  split
  · exact ⟨e.note, by cases e <;> rfl⟩
  · exact ⟨_, rfl⟩

theorem place_related {e f : Expr} (s t : CallSite) (related : R e f) :
    R (s.place e) (t.place f) := by
  obtain ⟨note, placed⟩ := s.place_eq_withNote e
  obtain ⟨note', placed'⟩ := t.place_eq_withNote f
  rw [placed, placed']
  exact congruent.noted note note' related

end CallSite

namespace Resolver

variable (congruent : Congruent R) {s t : CallSite}
include congruent

/-- Related answers settle related call sites in the same way. -/
theorem settled_related (like : s.Like R t) {handler : Handler} {name : String}
    {answer answer' : Except Failure (Option Expr)} (answers : Answers R answer answer')
    {x : Resolution} (resolved : settled s handler name answer = .ok x) :
    ∃ y, settled t handler name answer' = .ok y ∧ R x.expr y.expr ∧ x.handler = y.handler := by
  cases answers with
  | declined =>
      cases resolved
      exact ⟨_, rfl, like.asWritten congruent, rfl⟩
  | replaced related =>
      cases resolved
      exact ⟨_, rfl, CallSite.place_related congruent s t related, rfl⟩
  | failed => cases resolved

omit congruent in
theorem Decides.related {r : Resolver} (like : s.Like R t)
    (plugins : ∀ extension ∈ r.registry.callReplacers,
      Replacer.Parametric R r.options extension.2)
    (builtins : Replacer.Parametric R r.options r.builtins.replace) {handler : Handler}
    {name : String} {answer : Except Failure (Option Expr)}
    (decides : r.Decides s handler name answer) :
    ∃ answer', r.Decides t handler name answer' ∧ Answers R answer answer' := by
  have declines : ∀ extension ∈ r.registry.callReplacers,
      (r.Declines s extension ↔ r.Declines t extension) := by
    intro extension member
    exact (plugins extension member s t like).declined_iff
  cases decides with
  | @plugin before after name replace extensions decline answers =>
      have place : ∀ extension ∈ before ++ [(name, replace)],
          extension ∈ r.registry.callReplacers := by
        intro extension member
        rw [extensions, ← List.singleton_append, ← List.append_assoc]
        exact List.mem_append_left after member
      have own := place (name, replace) (by simp)
      refine ⟨replace r.options t, .plugin extensions ?_ ?_, plugins _ own s t like⟩
      · intro extension member
        exact (declines extension (place _ (List.mem_append_left _ member))).mp (decline _ member)
      · exact fun declined => answers ((declines _ own).mpr declined)
  | builtin decline =>
      exact ⟨_, .builtin fun extension member => (declines _ member).mp (decline _ member),
        builtins s t like⟩

/-- A resolver whose handlers all pass parts on follows itself. -/
theorem follows_of_parametric {r : Resolver}
    (plugins : ∀ extension ∈ r.registry.callReplacers,
      Replacer.Parametric R r.options extension.2)
    (builtins : Replacer.Parametric R r.options r.builtins.replace) :
    r.Follows R ResolvedCall.Alike r := by
  intro s t like x resolved
  obtain ⟨handler, name, answer, decides, settles⟩ := (r.resolve_eq_ok_iff s x).mp resolved
  obtain ⟨answer', decides', answers⟩ := decides.related like plugins builtins
  obtain ⟨y, settles', related, same⟩ := settled_related congruent like answers settles
  exact ⟨y, decides'.resolve.trans settles', related, ⟨same, like.owner⟩⟩

end Resolver
end
end CallReplacement
