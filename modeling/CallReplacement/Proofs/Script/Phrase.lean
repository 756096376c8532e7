import CallReplacement.Proofs.JavaScript.Lexeme
import CallReplacement.Proofs.Script.Tree
import Mathlib.Data.List.Forall2

/-!
Rendered expressions as phrases. `Means` says that a rendered expression is read as a phrase of
its precedence, in whatever way it may be used as an operand; each function that renders a node
has a lemma that puts the phrase of the node together from those of its parts.
-/

namespace CallReplacement

open JavaScript

/-- The level of the phrases that a rendered expression stands for. -/
def Precedence.phraseLevel : Precedence → Level
  | .sequence => .comma
  | .assign => .assign
  | .or => .or
  | .and => .and
  | .equality => .equality
  | .relational => .relational
  | .additive => .additive
  | .multiplicative => .multiplicative
  | .unary => .unary
  | .call => .call
  | .primary => .primary

theorem Precedence.rank_mono {p q : Precedence} (loose : p.level ≤ q.level) :
    p.phraseLevel.rank ≤ q.phraseLevel.rank := by
  cases p <;> cases q <;> simp_all [level, phraseLevel, Level.rank]

theorem Precedence.rank_strict {p q : Precedence} (loose : p.level < q.level) :
    p.phraseLevel.rank < q.phraseLevel.rank := by
  cases p <;> cases q <;> simp_all [level, phraseLevel, Level.rank]

namespace JavaScript

/-- Whether a character may stand behind any expression. -/
def isEnder (next : Option Char) : Bool :=
  next.all fun c => [' ', ',', ')', ']', ';', '(', '['].contains c

/-- What may stand behind an expression; a dot only if it may be followed by a member. -/
def Behind (dotted : Prop) (next : Option Char) : Prop := isEnder next ∨ (dotted ∧ next = some '.')

/-- Whether a text is read as the tokens wherever an expression may stand. -/
structure Written (A : Alphabet) (dotted : Prop) (text : String) (ts : List Token) : Prop where
  starts : Starts text.toList
  spells : Spells A text.toList ts (Behind dotted)

section
variable {A : Alphabet} {dotted more : Prop} {text : String} {ts : List Token}

theorem Written.mono (written : Written A dotted text ts) (fewer : more → dotted) :
    Written A more text ts where
  starts := written.starts
  spells := written.spells.mono fun _ behind => behind.imp_right (And.imp_left fewer)

theorem endsBefore_mark {m : Mark} (free : m.grows = []) (next : Option Char) :
    (Token.mark m).EndsBefore A next := by
  cases next <;> simp [Token.EndsBefore, Mark.endsBefore, free]

-- A mark that nothing makes longer can be put in front of any text.
theorem Spells.cons_mark {before : Option Char → Prop} {chars : List Char} {m : Mark}
    (free : m.grows = []) (spells : Spells A chars ts before) :
    Spells A (m.text ++ chars) (.mark m :: ts) before :=
  (spells_token (.mark m)).append spells fun _ _ => endsBefore_mark free _

theorem spells_close {m : Mark} (free : m.grows = []) (before : Option Char → Prop) :
    Spells A m.text [.mark m] before :=
  (spells_token (.mark m)).mono fun next _ => endsBefore_mark free next

-- An expression between two marks.
theorem Spells.between (opening closing : Mark) {chars : List Char}
    (free : opening.grows = [] ∧ closing.grows = [])
    (ender : isEnder closing.text.head?) (before : Option Char → Prop)
    (spells : Spells A chars ts (Behind dotted)) :
    Spells A (opening.text ++ (chars ++ closing.text)) (.mark opening :: (ts ++ [.mark closing]))
      before := by
  refine Spells.cons_mark free.1 (spells.append (spells_close free.2 before) fun next _ => ?_)
  obtain ⟨c, rest, chars⟩ := List.exists_cons_of_ne_nil closing.text_ne_nil
  rw [chars] at ender ⊢
  exact .inl ender

theorem Written.parenthesized (written : Written A dotted text ts) :
    Written A True (Rendered.parenthesized text)
      (.mark .openParen :: (ts ++ [.mark .closeParen])) where
  starts := by
    rw [Rendered.parenthesized, String.append_assoc, String.toList_append]
    exact ⟨'(', rfl, rfl⟩
  spells := by
    have inner := written.spells.between .openParen .closeParen ⟨rfl, rfl⟩ rfl (Behind True)
    simpa [Rendered.parenthesized, Mark.text] using inner

end

/-- Whether the tokens are the phrase, as a rendered expression of the precedence. -/
inductive Spine.ReadsAt (p : Precedence) (s : Spine) (ts : List Token) : Prop
  | chain : Precedence.call.level ≤ p.level → s.Reads ts → s.ReadsAt p ts
  | plain {t} : p ≠ .call → s = .ofTree t → JavaScript.Reads p.phraseLevel ts t → s.ReadsAt p ts

theorem Spine.ReadsAt.reads {p q : Precedence} {s : Spine} {ts : List Token}
    (reads : s.ReadsAt p ts) (loose : q.level ≤ p.level)
    (noPrimary : q.level ≤ Precedence.call.level) :
    JavaScript.Reads q.phraseLevel ts s.tree := by
  cases reads with
  | chain _ chain => exact chain.call.loosen (Precedence.rank_mono noPrimary)
  | plain _ same reads =>
      subst same
      exact reads.loosen (Precedence.rank_mono loose)

end JavaScript

/-! ## Operands -/

/-- Whether a member of the expression can be taken without parentheses. -/
def Rendered.dotted (r : Rendered) (t : Tree) : Prop :=
  Precedence.call.level ≤ r.precedence.level ∧ t.isNumber = false

/-- Whether a rendered expression is read as a phrase. -/
def Means (A : Alphabet) (r : Rendered) (s : Spine) : Prop :=
  ∃ ts, Written A (r.dotted s.tree) r.text ts ∧ s.ReadsAt r.precedence ts

section
variable {A : Alphabet} {r : Rendered} {s : Spine} {ts : List Token}

theorem Means.parenthesized (means : Means A r s) :
    ∃ ts, Written A True (Rendered.parenthesized r.text) ts ∧ Reads .primary ts s.tree := by
  obtain ⟨ts, written, reads⟩ := means
  refine ⟨_, written.parenthesized, .parenthesized ?_⟩
  exact reads.reads (q := .sequence) (Nat.zero_le _) (by decide)

-- An operand that has to bind as tightly as `p` does so, in parentheses if need be.
theorem Means.atLeast (means : Means A r s) {p : Precedence}
    (noPrimary : p.level ≤ Precedence.call.level) :
    ∃ ts, Written A False (r.atLeast p) ts ∧ Reads p.phraseLevel ts s.tree := by
  by_cases loose : r.precedence.level < p.level
  · obtain ⟨ts, written, reads⟩ := means.parenthesized
    rw [Rendered.atLeast, if_pos loose]
    refine ⟨ts, written.mono False.elim, reads.loosen ?_⟩
    exact Precedence.rank_mono (q := .primary) (Nat.le_trans noPrimary (by decide))
  · obtain ⟨ts, written, reads⟩ := means
    rw [Rendered.atLeast, if_neg loose]
    exact ⟨ts, written.mono False.elim, reads.reads (Nat.not_lt.mp loose) noPrimary⟩

-- An operand that has to bind tighter than `p` does so.
theorem Means.above (means : Means A r s) {p : Precedence}
    (noCall : p.level < Precedence.call.level) :
    ∃ ts level, Written A False (r.above p) ts ∧ p.phraseLevel.rank < Level.rank level ∧
      Reads level ts s.tree := by
  by_cases loose : r.precedence.level ≤ p.level
  · obtain ⟨ts, written, reads⟩ := means.parenthesized
    rw [Rendered.above, if_pos loose]
    refine ⟨ts, .primary, written.mono False.elim, ?_, reads⟩
    exact Precedence.rank_strict (q := .primary) (Nat.lt_trans noCall (by decide))
  · obtain ⟨ts, written, reads⟩ := means
    rw [Rendered.above, if_neg loose]
    have tight : p.level < r.precedence.level := Nat.not_le.mp loose
    refine ⟨ts, ?_⟩
    cases reads with
    | chain _ chain =>
        exact ⟨.call, written.mono False.elim, Precedence.rank_strict (q := .call) noCall, chain.call⟩
    | plain _ same reads =>
        subst same
        exact ⟨_, written.mono False.elim, Precedence.rank_strict tight, reads⟩

end

/-! ## Words, numbers and strings -/

section
variable {A : Alphabet}

theorem partsFrom_behind {dotted : Prop} {next : Option Char} (behind : Behind dotted next) :
    A.partsFrom next := by
  cases next with
  | none => rfl
  | some c =>
      have which : c ∈ ['.', ' ', ',', ')', ']', ';', '(', '['] := by
        rcases behind with ender | ⟨_, dot⟩
        · exact List.mem_cons_of_mem _ (by simpa [isEnder] using ender)
        · cases dot
          exact List.mem_cons_self
      have others : ['.', ' ', ',', ')', ']', ';', '(', '['].all fun c =>
          c.toNat ≤ 127 && !(c.isAlpha || c == '_' || c == '$' || c.isDigit) := by decide
      have other := List.all_eq_true.mp others c which
      rw [Bool.and_eq_true, decide_eq_true_eq, Bool.not_eq_true'] at other
      obtain ⟨ascii, other⟩ := other
      simp [Alphabet.partsFrom, A.isPart_of_ascii ascii, other]

theorem written_token {dotted : Prop} {t : Token} {text : String} (spelled : t.text = text.toList)
    (ends : ∀ next, Behind dotted next → t.EndsBefore A next) : Written A dotted text [t] where
  starts := spelled ▸ starts_token (ends none (.inl rfl))
  spells := spelled ▸ (spells_token t).mono ends

theorem written_name {name : String} (isName : A.IsName name) : Written A True name [.name name] :=
  written_token rfl fun _ behind => ⟨isName, partsFrom_behind behind⟩

theorem written_keyword {word : String} (member : word ∈ reserved) :
    Written A True word [.keyword word] :=
  written_token rfl fun _ behind => ⟨member, partsFrom_behind behind⟩

theorem written_string (value : String) : Written A True (Text.quoted value) [.string value] :=
  written_token rfl fun _ _ => trivial

theorem written_number {text : String} (numeral : IsNumeral text.toList) :
    Written A False text [.number text] := by
  refine written_token rfl fun next behind => ⟨numeral, partsFrom_behind behind, .inr ?_⟩
  rintro rfl
  rcases behind with ender | ⟨impossible, _⟩
  · cases ender
  · exact impossible

theorem means_primary {t : Tree} {text : String} {ts : List Token}
    (written : Written A (t.isNumber = false) text ts) (reads : Reads .primary ts t) :
    Means A (.primary text) (.ofTree t) :=
  ⟨ts, written.mono And.right, .plain nofun rfl reads⟩

end
end CallReplacement
