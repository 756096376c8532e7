import CallReplacement.Proofs.JavaScript.Token

/-!
Texts as rows of tokens and blanks. A row can be read back if each token ends where the next
lexeme begins; then reading its text gives its tokens. Two rows can be joined if the first one
ends before the second.
-/

namespace CallReplacement.JavaScript

def isBlank (c : Char) : Bool := c == ' ' || c == '\n' || c == '\t' || c == '\r'

theorem isBlank_space : ∀ c ∈ [' '], isBlank c := List.forall_mem_singleton.mpr rfl

theorem isBlank_newline : ∀ c ∈ ['\n'], isBlank c := List.forall_mem_singleton.mpr rfl

/-- The tokens of a text, if all of it can be read. -/
def lex (A : Alphabet) (text : List Char) : Option (List Token) :=
  match text with
  | [] => some []
  | c :: rest =>
      if isBlank c then lex A rest
      else (A.readToken (c :: rest)).bind fun read =>
        if read.2.length < (c :: rest).length then (lex A read.2).map (read.1 :: ·) else none
termination_by text.length
decreasing_by
  · exact Nat.lt_succ_self _
  · assumption

inductive Lexeme
  | blank (text : List Char)
  | token (t : Token)
deriving Repr

def Lexeme.text : Lexeme → List Char
  | .blank text => text
  | .token t => t.text

def Lexeme.token? : Lexeme → Option Token
  | .blank _ => none
  | .token t => some t

def spell (row : List Lexeme) : List Char := row.flatMap Lexeme.text

def tokens (row : List Lexeme) : List Token := row.filterMap Lexeme.token?

section
variable (row other : List Lexeme) (text : List Char) (t : Token)

@[simp]
theorem spell_nil : spell [] = [] := rfl

@[simp]
theorem spell_blank : spell (.blank text :: row) = text ++ spell row := rfl

@[simp]
theorem spell_token : spell (.token t :: row) = t.text ++ spell row := rfl

@[simp]
theorem spell_append : spell (row ++ other) = spell row ++ spell other := List.flatMap_append

@[simp]
theorem tokens_nil : tokens [] = [] := rfl

@[simp]
theorem tokens_blank : tokens (.blank text :: row) = tokens row := rfl

@[simp]
theorem tokens_token : tokens (.token t :: row) = t :: tokens row := rfl

@[simp]
theorem tokens_append : tokens (row ++ other) = tokens row ++ tokens other :=
  List.filterMap_append

end

/-- The first character of a row and what follows it. -/
def first (row : List Lexeme) (next : Option Char) : Option Char := (spell row).head?.or next

/-- Whether each token of a row ends where the next lexeme begins. -/
def Clear (A : Alphabet) : List Lexeme → Option Char → Prop
  | [], _ => True
  | .blank text :: row, next => (∀ c ∈ text, isBlank c) ∧ Clear A row next
  | .token t :: row, next => t.EndsBefore A (first row next) ∧ Clear A row next

section
variable {A : Alphabet}

theorem first_append (row other : List Lexeme) (next : Option Char) :
    first (row ++ other) next = first row (first other next) := by
  cases chars : spell row <;> simp [first, chars]

theorem clear_append (row other : List Lexeme) (next : Option Char) :
    Clear A (row ++ other) next ↔ Clear A row (first other next) ∧ Clear A other next := by
  induction row with
  | nil => simp [Clear]
  | cons lexeme row ih =>
      cases lexeme with
      | blank text => simp [Clear, ih, and_assoc]
      | token t => simp [Clear, ih, first_append, and_assoc]

theorem readToken_blank {c : Char} (blank : isBlank c) (rest : List Char) :
    A.readToken (c :: rest) = none := by
  have which : c = ' ' ∨ c = '\n' ∨ c = '\t' ∨ c = '\r' := by
    simpa [isBlank, or_assoc] using blank
  rcases which with rfl | rfl | rfl | rfl <;>
    simp [Alphabet.readToken, A.isStart_of_ascii, Mark.read, Mark.all, Mark.text]

theorem Token.EndsBefore.text_ne_nil {t : Token} {next : Option Char}
    (ends : t.EndsBefore A next) : t.text ≠ [] := by
  have word : ∀ {text : String}, A.IsWord text → text.toList ≠ [] := by
    rintro text ⟨⟨c, first, _⟩, _⟩ empty
    simp [empty] at first
  cases t with
  | name text => exact word ends.1.1
  | keyword text => exact word (A.isWord_of_mem_reserved ends.1)
  | number text =>
      obtain ⟨c, rest, chars, _⟩ := ends.1.digit_first
      simp [Token.text, chars]
  | string value => simp [Token.text, Text.quoted]
  | mark m => exact m.text_ne_nil

theorem lex_blank {text : List Char} (blank : ∀ c ∈ text, isBlank c) (after : List Char) :
    lex A (text ++ after) = lex A after := by
  induction text with
  | nil => rfl
  | cons c rest ih =>
      have head := blank c List.mem_cons_self
      rw [List.cons_append, lex, if_pos head]
      exact ih fun c member => blank c (List.mem_cons_of_mem _ member)

theorem lex_token {t : Token} {after : List Char} (ends : t.EndsBefore A after.head?) :
    lex A (t.text ++ after) = (lex A after).map (t :: ·) := by
  have read := readToken_text t ends
  obtain ⟨c, rest, chars⟩ := List.exists_cons_of_ne_nil ends.text_ne_nil
  rw [chars, List.cons_append] at read ⊢
  have noBlank : isBlank c ≠ true := by
    intro blank
    rw [readToken_blank blank] at read
    cases read
  have shorter : after.length < (c :: (rest ++ after)).length := by
    rw [List.length_cons, List.length_append]
    omega
  rw [lex, if_neg noBlank, read, Option.bind_some, if_pos shorter]

-- Reading the text of a row gives its tokens.
theorem lex_spell (row : List Lexeme) (clear : Clear A row none) :
    lex A (spell row) = some (tokens row) := by
  induction row with
  | nil => simp [lex]
  | cons lexeme row ih =>
      cases lexeme with
      | blank text =>
          obtain ⟨head, rest⟩ := clear
          rw [spell_blank, lex_blank head, ih rest, tokens_blank]
      | token t =>
          obtain ⟨head, rest⟩ := clear
          rw [first, Option.or_none] at head
          rw [spell_token, lex_token head, ih rest, tokens_token, Option.map_some]

/-! ## Spellings -/

/-- Whether a text is a spelling of the tokens, and is read as them before each of the given
characters. -/
def Spells (A : Alphabet) (text : List Char) (ts : List Token) (before : Option Char → Prop) :
    Prop :=
  ∃ row, spell row = text ∧ tokens row = ts ∧ ∀ next, before next → Clear A row next

section
variable {text more : List Char} {ts us : List Token} {before after : Option Char → Prop}

theorem Spells.lex (spells : Spells A text ts before) (last : before none) :
    lex A text = some ts := by
  obtain ⟨row, rfl, rfl, clear⟩ := spells
  exact lex_spell row (clear none last)

theorem Spells.mono (spells : Spells A text ts before)
    (fewer : ∀ next, after next → before next) : Spells A text ts after := by
  obtain ⟨row, spelled, same, clear⟩ := spells
  exact ⟨row, spelled, same, fun next h => clear next (fewer next h)⟩

-- Two spellings may stand next to each other if the first one ends before the second.
theorem Spells.append (spells : Spells A text ts before) (others : Spells A more us after)
    (meet : ∀ next, after next → before (more.head?.or next)) :
    Spells A (text ++ more) (ts ++ us) after := by
  obtain ⟨row, rfl, rfl, clear⟩ := spells
  obtain ⟨other, rfl, rfl, clearToo⟩ := others
  refine ⟨row ++ other, spell_append row other, tokens_append row other, fun next h => ?_⟩
  exact (clear_append row other next).mpr ⟨clear _ (meet next h), clearToo next h⟩

theorem spells_nil : Spells A [] [] before := ⟨[], rfl, rfl, fun _ _ => trivial⟩

theorem spells_blank (blank : ∀ c ∈ text, isBlank c) : Spells A text [] before :=
  ⟨[.blank text], by simp, rfl, fun _ _ => ⟨blank, trivial⟩⟩

theorem spells_token (t : Token) : Spells A t.text [t] (fun next => t.EndsBefore A next) :=
  ⟨[.token t], by simp, rfl, fun next h => ⟨by simpa [first] using h, trivial⟩⟩

/-- Whether a text begins at once, with no blank. -/
def Starts (text : List Char) : Prop := ∃ c ∈ text.head?, isBlank c = false

theorem Starts.append (starts : Starts text) (more : List Char) : Starts (text ++ more) := by
  obtain ⟨c, isHead, noBlank⟩ := starts
  exact ⟨c, by simp_all [List.head?_append], noBlank⟩

theorem starts_cons {c : Char} (noBlank : isBlank c = false) (rest : List Char) :
    Starts (c :: rest) := ⟨c, rfl, noBlank⟩

theorem starts_token {t : Token} (ends : t.EndsBefore A none) : Starts t.text := by
  obtain ⟨c, rest, chars⟩ := List.exists_cons_of_ne_nil ends.text_ne_nil
  have read : A.readToken (t.text ++ []) = some (t, []) := readToken_text t ends
  rw [chars, List.append_nil] at *
  refine starts_cons ?_ rest
  by_contra blank
  rw [readToken_blank (by simpa using blank)] at read
  cases read

-- A spelling that begins at once begins as its first token does.
theorem Spells.head (spells : Spells A text ts before) (starts : Starts text) {next : Option Char}
    (possible : before next) :
    ∃ t rest follow, ts = t :: rest ∧ text.head? = t.text.head? ∧ t.EndsBefore A follow := by
  obtain ⟨row, rfl, rfl, clear⟩ := spells
  replace clear := clear next possible
  induction row with
  | nil => simp [Starts] at starts
  | cons lexeme row ih =>
      cases lexeme with
      | blank text =>
          obtain ⟨blank, clear⟩ := clear
          cases text with
          | nil => exact ih starts clear
          | cons c rest =>
              obtain ⟨d, isHead, noBlank⟩ := starts
              cases isHead
              simp [blank c List.mem_cons_self] at noBlank
      | token t =>
          obtain ⟨ends, _⟩ := clear
          obtain ⟨c, rest, chars⟩ := List.exists_cons_of_ne_nil ends.text_ne_nil
          exact ⟨t, tokens row, _, rfl, by simp [chars], ends⟩

end

end
end CallReplacement.JavaScript
