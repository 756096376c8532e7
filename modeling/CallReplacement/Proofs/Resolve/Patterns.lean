import Mathlib.Data.List.Nodup
import CallReplacement.Proofs.Resolve.Simulation
import CallReplacement.Proofs.Script.ReadBack
import CallReplacement.Resolve.Standard

/-!
How often the text of a replacement shows an operand of the call. A name or a literal may be written
any number of times; of every other operand each text in the replacement is one more evaluation.

What a handler makes of its operands is a pattern: fixed texts with operands between them. Only a
pattern that is the same for all operands says how often one is shown, so it has to hold of every
call that has other operands in the same places. With that, the number is a fact about the handler:
it is the same for all patterns.
-/

namespace CallReplacement

/-- The place of an operand of a call. -/
inductive Operand
  | receiver
  | arg (index : Nat)
deriving DecidableEq

def CallSite.operand? (s : CallSite) : Operand → Option Expr
  | .receiver => s.receiver
  | .arg index => s.args[index]?

namespace Expr

/-- Names and literals. -/
inductive IsAtom : Expr → Prop
  | ident (note : Note) (binding : Binding) : IsAtom (.ident note binding)
  | literal (note : Note) (value : Literal) : IsAtom (.literal note value)

/-- Whether an operand may be exchanged for the other one: atoms stay as they are. -/
def Exchangeable (e f : Expr) : Prop := e = f ∨ (¬ e.IsAtom ∧ ¬ f.IsAtom)

theorem isRepeatable_iff (e : Expr) : Standard.Strings.isRepeatable e ↔ e.IsAtom := by
  constructor
  · intro repeatable
    cases e <;> first | exact .ident _ _ | exact .literal _ _ | cases repeatable
  · rintro (_ | _) <;> rfl

theorem isAtom_of_isNumber {e : Expr} (isNumber : e.isNumber) : e.IsAtom := by
  cases e <;> first | exact .literal _ _ | cases isNumber

theorem Exchangeable.refl (e : Expr) : e.Exchangeable e := .inl rfl

-- What a handler asks of an operand is the same for both.
theorem Exchangeable.iff {p : Expr → Bool} (atoms : ∀ e, p e → e.IsAtom) {e f : Expr}
    (exchangeable : e.Exchangeable f) : p e = p f := by
  rcases exchangeable with rfl | ⟨other, other'⟩
  · rfl
  · have no {e : Expr} (other : ¬ e.IsAtom) : p e = false := by
      rw [Bool.eq_false_iff]
      exact mt (atoms e) other
    rw [no other, no other']

end Expr

/-! ## Patterns -/

/-- A piece of a pattern: a fixed text, or an operand that has to bind as tightly as asked. -/
inductive Fragment
  | fixed (text : String)
  | operand (o : Operand) (least : Precedence)

namespace Fragment

def operand? : Fragment → Option Operand
  | .fixed _ => none
  | .operand o _ => some o

/-- What a piece shows of the operands of a call. -/
def text (s : CallSite) (render : Expr → Rendered) : Fragment → String
  | .fixed text => text
  | .operand o least => (s.operand? o).elim "" fun e => (render e).atLeast least

/-- The operands that a pattern shows, in order. -/
def operands (pattern : List Fragment) : List Operand := pattern.filterMap operand?

/-- Pieces with a comma between neighbours. -/
def commas (pieces : List Fragment) : List Fragment := pieces.intersperse (.fixed ", ")

def filled (s : CallSite) (render : Expr → Rendered) (pattern : List Fragment) : String :=
  String.join (pattern.map (text s render))

section
variable {s : CallSite} {render : Expr → Rendered}

@[simp]
theorem filled_nil : filled s render [] = "" := rfl

@[simp]
theorem filled_cons (piece : Fragment) (pattern : List Fragment) :
    filled s render (piece :: pattern) = piece.text s render ++ filled s render pattern := by
  simp [filled, String.join_cons]

@[simp]
theorem filled_append (pattern others : List Fragment) :
    filled s render (pattern ++ others) = filled s render pattern ++ filled s render others := by
  induction pattern with
  | nil => simp
  | cons piece rest ih => simp [ih, String.append_assoc]

theorem filled_commas (pieces : List Fragment) :
    filled s render (commas pieces) = Text.joined ", " (pieces.map (text s render)) := by
  induction pieces with
  | nil => rfl
  | cons piece rest ih =>
      cases rest with
      | nil => simp [commas]
      | cons next rest =>
          simp only [commas, List.intersperse, filled_cons] at ih ⊢
          rw [ih, ← String.append_assoc]
          rfl

@[simp]
theorem operands_nil : operands [] = [] := rfl

@[simp]
theorem operands_fixed (text : String) (pattern : List Fragment) :
    operands (.fixed text :: pattern) = operands pattern := rfl

@[simp]
theorem operands_operand (o : Operand) (least : Precedence) (pattern : List Fragment) :
    operands (.operand o least :: pattern) = o :: operands pattern := rfl

@[simp]
theorem operands_append (pattern others : List Fragment) :
    operands (pattern ++ others) = operands pattern ++ operands others := by
  simp [operands]

theorem operands_commas (pieces : List Fragment) : operands (commas pieces) = operands pieces := by
  induction pieces with
  | nil => rfl
  | cons piece rest ih =>
      cases rest with
      | nil => rfl
      | cons next rest =>
          simp only [operands, commas, List.intersperse, List.filterMap_cons, operand?] at ih ⊢
          rw [ih]

end
end Fragment

/-- Whether the handler makes the pattern of the operands, at the call site and at every other one
with exchangeable operands. -/
def Replacer.ShowsAs (replace : Replacer) (options : Options) (s : CallSite)
    (pattern : List Fragment) : Prop :=
  ∀ t : CallSite, s.Like Expr.Exchangeable t → ∃ e, replace options t = .ok (some e) ∧
    ∀ indent imports depth, (e.render indent imports depth).text =
      Fragment.filled t (Expr.render indent imports depth) pattern

/-- Whether whatever the handler makes shows each operand once at most, atoms apart. -/
def Replacer.ShowsOnce (replace : Replacer) : Prop :=
  ∀ options s e, replace options s = .ok (some e) →
    ∃ pattern, replace.ShowsAs options s pattern ∧
      ∀ o x, s.operand? o = some x → ¬ x.IsAtom → (Fragment.operands pattern).count o ≤ 1

section
variable {options : Options} {s t : CallSite} {pattern : List Fragment} {indent : Indent}
  {imports : Imports} {depth : Nat}

theorem count_operands_le_one (once : (Fragment.operands pattern).Nodup) (o : Operand) :
    (Fragment.operands pattern).count o ≤ 1 := List.nodup_iff_count_le_one.mp once o

/-! ## How often an operand is shown -/

/-- The call with another operand in the place of one. -/
def CallSite.exchange (s : CallSite) (x : Expr) : Operand → CallSite
  | .receiver => { s with receiver := some x }
  | .arg index => { s with args := s.args.set index x }

section
variable {o : Operand} {old : Expr} (found : s.operand? o = some old)
include found

theorem CallSite.operand?_exchange (x : Expr) (p : Operand) :
    (s.exchange x o).operand? p = if p = o then some x else s.operand? p := by
  cases o with
  | receiver => cases p <;> simp [exchange, operand?]
  | arg index =>
      obtain ⟨bound, _⟩ := List.getElem?_eq_some_iff.mp found
      cases p with
      | receiver => simp [exchange, operand?]
      | arg other =>
          by_cases same : other = index
          · subst same
            simp [exchange, operand?, bound]
          · simp [exchange, operand?, same, Ne.symm same]

theorem CallSite.like_exchange {x : Expr} (exchangeable : old.Exchangeable x) :
    s.Like Expr.Exchangeable (s.exchange x o) := by
  have itself (args : List Expr) : List.Forall₂ Expr.Exchangeable args args :=
    List.forall₂_same.mpr fun e _ => .refl e
  cases o with
  | receiver =>
      refine ⟨rfl, rfl, rfl, ?_, itself s.args⟩
      rw [show s.receiver = some old from found]
      exact .some exchangeable
  | arg index =>
      refine ⟨rfl, rfl, rfl, ?_, ?_⟩
      · change Option.Rel Expr.Exchangeable s.receiver s.receiver
        cases s.receiver with
        | none => exact .none
        | some receiver => exact .some (.refl receiver)
      · change List.Forall₂ Expr.Exchangeable s.args (s.args.set index x)
        obtain ⟨bound, rfl⟩ := List.getElem?_eq_some_iff.mp found
        refine List.forall₂_iff_get.mpr ⟨List.length_set.symm, fun other before _ => ?_⟩
        by_cases same : index = other
        · subst same
          simpa using exchangeable
        · simpa [same] using Expr.Exchangeable.refl _

end

/-- A call of a function with a name of the length. -/
def Expr.ofLength (length : Nat) : Expr :=
  .call (.typed .any) .direct (.named (String.ofList (List.replicate length 'f')) .any) []

theorem Expr.length_atLeast_ofLength (indent : Indent) (imports : Imports) (depth length : Nat)
    (least : Precedence) :
    (((Expr.ofLength length).render indent imports depth).atLeast least).length =
      (((Expr.ofLength 0).render indent imports depth).atLeast least).length + length := by
  have rendered (length : Nat) : (Expr.ofLength length).render indent imports depth =
      ⟨String.ofList (List.replicate length 'f') ++ "()", .call⟩ := rfl
  rw [rendered, rendered]
  simp only [Rendered.atLeast, Rendered.parenthesized]
  split <;> simp only [String.length_append, String.length_ofList, List.length_replicate] <;> omega

-- Each time an operand is shown, a longer one makes the text longer.
theorem Fragment.length_filled {o : Operand} {old : Expr} (found : s.operand? o = some old)
    (n : Nat) (pattern : List Fragment) :
    (filled (s.exchange (.ofLength n) o) (Expr.render indent imports depth) pattern).length =
      (filled (s.exchange (.ofLength 0) o) (Expr.render indent imports depth) pattern).length
        + n * (operands pattern).count o := by
  induction pattern with
  | nil => rfl
  | cons piece rest ih =>
      cases piece with
      | fixed text => simp [Fragment.text, ih, Nat.add_assoc]
      | operand p least =>
          simp only [filled_cons, String.length_append, ih, operands_operand, List.count_cons,
            Fragment.text, CallSite.operand?_exchange found]
          by_cases same : p = o
          · subst same
            have longer := Expr.length_atLeast_ofLength indent imports depth n least
            simp only [if_true, Option.elim_some, longer, beq_self_eq_true, Nat.mul_succ]
            omega
          · simp [same]
            omega

/-- However a pattern is written that the handler fills, it shows an operand that is no atom the
same number of times. -/
theorem Replacer.ShowsAs.count_eq {replace : Replacer} {other : List Fragment}
    (shown : replace.ShowsAs options s pattern) (shown' : replace.ShowsAs options s other)
    {o : Operand} {x : Expr} (found : s.operand? o = some x) (noAtom : ¬ x.IsAtom) :
    (Fragment.operands other).count o = (Fragment.operands pattern).count o := by
  have same (n : Nat) :
      Fragment.filled (s.exchange (.ofLength n) o) (Expr.render .standard {} 0) pattern =
        Fragment.filled (s.exchange (.ofLength n) o) (Expr.render .standard {} 0) other := by
    have like : s.Like Expr.Exchangeable (s.exchange (.ofLength n) o) :=
      CallSite.like_exchange found (.inr ⟨noAtom, nofun⟩)
    obtain ⟨e, replaced, rendered⟩ := shown _ like
    obtain ⟨e', replaced', rendered'⟩ := shown' _ like
    rw [replaced] at replaced'
    cases replaced'
    rw [← rendered, ← rendered']
  have atZero := congrArg String.length (same 0)
  have atOne := congrArg String.length (same 1)
  rw [Fragment.length_filled found 1 pattern, Fragment.length_filled found 1 other] at atOne
  omega

end
end CallReplacement
