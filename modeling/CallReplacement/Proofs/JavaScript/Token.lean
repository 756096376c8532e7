import CallReplacement.Json.Lexeme
import CallReplacement.Proofs.JavaScript.Mark
import CallReplacement.Text.Quoted
import Mathlib.Data.List.Basic

/-!
Tokens of JavaScript expressions. A word runs as far as its characters allow, a number may have
a fraction but no leading zeros, and a string is written between double quotes. A number that
runs into a word is not read.

Which characters outside ASCII belong to words is left to an alphabet, so that names may be any
identifiers.
-/

namespace CallReplacement.JavaScript

/-- The characters outside ASCII that words begin with and go on with. -/
structure Alphabet where
  begins : Char → Bool
  continues : Char → Bool

/-- Words of ASCII characters only. -/
def Alphabet.ascii : Alphabet := ⟨fun _ => false, fun _ => false⟩

inductive Token
  | name (text : String)
  | keyword (word : String)
  | number (text : String)
  | string (value : String)
  | mark (m : Mark)
deriving DecidableEq, Repr

/-- The words that are never names. -/
def reserved : List String :=
  ["break", "case", "catch", "class", "const", "continue", "debugger", "default", "delete", "do",
    "else", "enum", "export", "extends", "false", "finally", "for", "function", "if", "import",
    "in", "instanceof", "new", "null", "return", "super", "switch", "this", "throw", "true",
    "try", "typeof", "var", "void", "while", "with"]

/-- Digits without a leading zero. -/
def IsWhole (digits : List Char) : Prop :=
  digits ≠ [] ∧ (∀ c ∈ digits, c.isDigit) ∧ (digits.head? = some '0' → digits.length = 1)

instance (digits : List Char) : Decidable (IsWhole digits) :=
  decidable_of_iff
    (digits ≠ [] ∧ digits.all Char.isDigit ∧ (digits.head? = some '0' → digits.length = 1))
    (by rw [IsWhole, List.all_eq_true])

inductive IsNumeral : List Char → Prop
  | whole {digits} : IsWhole digits → IsNumeral digits
  | decimal {digits fraction} : IsWhole digits → (∀ c ∈ fraction, c.isDigit) →
      IsNumeral (digits ++ '.' :: fraction)

namespace Token

def text : Token → List Char
  | .name text | .keyword text | .number text => text.toList
  | .string value => (Text.quoted value).toList
  | .mark m => m.text

def ofWord (word : String) : Token :=
  if word ∈ reserved then .keyword word else .name word

/-- The word that a token is written as. -/
def word? : Token → Option String
  | .name word | .keyword word => some word
  | _ => none

end Token

/-- The characters of a string up to its closing quote. No line ends in a string. -/
def readString : List Char → Option (List Char × List Char)
  | [] => none
  | '"' :: rest => some ([], rest)
  | '\\' :: 'u' :: a :: b :: c :: d :: rest =>
      (Json.hex4? a b c d).bind fun n =>
        if n.isValidChar then (readString rest).map fun read => (Char.ofNat n :: read.1, read.2)
        else none
  | '\\' :: c :: rest =>
      (Json.simpleEscape? c).bind fun escaped =>
        (readString rest).map fun read => (escaped :: read.1, read.2)
  | c :: rest =>
      if c = '\\' ∨ c = '\n' ∨ c = '\r' then none
      else (readString rest).map fun read => (c :: read.1, read.2)

namespace Alphabet
variable (A : Alphabet)

def isStart (c : Char) : Bool :=
  c.isAlpha || c == '_' || c == '$' || (127 < c.toNat && A.begins c)

def isPart (c : Char) : Bool :=
  A.isStart c || c.isDigit || (127 < c.toNat && A.continues c)

/-- Whether a text is a word: a name or a reserved one. -/
def IsWord (word : String) : Prop :=
  (∃ c ∈ word.toList.head?, A.isStart c) ∧ ∀ c ∈ word.toList, A.isPart c

/-- Whether a text is an identifier. -/
def IsName (word : String) : Prop := A.IsWord word ∧ word ∉ reserved

/-- Whether no word goes on with the character. -/
def partsFrom (next : Option Char) : Bool := next.all fun c => !A.isPart c

def readNumber (text : List Char) : Option (Token × List Char) :=
  let whole := text.takeWhile Char.isDigit
  let split := match text.dropWhile Char.isDigit with
    | '.' :: tail => (whole ++ '.' :: tail.takeWhile Char.isDigit, tail.dropWhile Char.isDigit)
    | after => (whole, after)
  if IsWhole whole ∧ A.partsFrom split.2.head? then
    some (.number (String.ofList split.1), split.2)
  else none

/-- The token at the front of a text, and what follows it. -/
def readToken (text : List Char) : Option (Token × List Char) :=
  match text with
  | [] => none
  | c :: rest =>
      if A.isStart c then
        some (.ofWord (String.ofList (text.takeWhile A.isPart)), text.dropWhile A.isPart)
      else if c.isDigit then A.readNumber text
      else if c = '"' then
        (readString rest).map fun read => (.string (String.ofList read.1), read.2)
      else (Mark.read text).map fun read => (.mark read.1, read.2)

theorem isPart_of_isStart {c : Char} (start : A.isStart c) : A.isPart c := by
  simp [isPart, start]

theorem isStart_of_isAlpha {c : Char} (letter : c.isAlpha) : A.isStart c := by
  simp [isStart, letter]

theorem isPart_of_isDigit {c : Char} (digit : c.isDigit) : A.isPart c := by
  simp [isPart, digit]

-- The alphabet says nothing about ASCII.
theorem isStart_of_ascii {c : Char} (ascii : c.toNat ≤ 127) :
    A.isStart c = (c.isAlpha || c == '_' || c == '$') := by
  have small : decide (127 < c.toNat) = false := by simpa using ascii
  simp [isStart, small]

theorem isPart_of_ascii {c : Char} (ascii : c.toNat ≤ 127) :
    A.isPart c = (c.isAlpha || c == '_' || c == '$' || c.isDigit) := by
  have small : decide (127 < c.toNat) = false := by simpa using ascii
  simp [isPart, A.isStart_of_ascii ascii, small]

theorem isStart_of_isDigit {c : Char} (digit : c.isDigit) : A.isStart c = false := by
  obtain ⟨low, high⟩ : 48 ≤ c.toNat ∧ c.toNat ≤ 57 := by
    simpa [Char.isDigit, UInt32.le_iff_toNat_le] using digit
  have only : ∀ n < 58, 48 ≤ n →
      ((Char.ofNat n).isAlpha || Char.ofNat n == '_' || Char.ofNat n == '$') = false := by decide
  rw [A.isStart_of_ascii (by omega)]
  simpa using only c.toNat (by omega) low

theorem isWord_of_letters {word : String} (nonempty : word.toList ≠ [])
    (letters : word.toList.all Char.isAlpha) : A.IsWord word := by
  rw [List.all_eq_true] at letters
  constructor
  · obtain ⟨c, rest, chars⟩ := List.exists_cons_of_ne_nil nonempty
    refine ⟨c, by simp [chars], A.isStart_of_isAlpha (letters c ?_)⟩
    simp [chars]
  · intro c inside
    exact A.isPart_of_isStart (A.isStart_of_isAlpha (letters c inside))

theorem isName_of_letters {word : String} (nonempty : word.toList ≠ [])
    (letters : word.toList.all Char.isAlpha) (free : word ∉ reserved) : A.IsName word :=
  ⟨A.isWord_of_letters nonempty letters, free⟩

theorem isWord_of_mem_reserved {word : String} (member : word ∈ reserved) : A.IsWord word := by
  have letters : ∀ word ∈ reserved, word.toList ≠ [] ∧ word.toList.all Char.isAlpha := by decide
  exact A.isWord_of_letters (letters word member).1 (letters word member).2

end Alphabet

-- A run of characters ends where one of another kind follows.
theorem takeWhile_append_stop {p : Char → Bool} {run after : List Char} (all : ∀ c ∈ run, p c)
    (stop : after.head?.all fun c => !p c) :
    (run ++ after).takeWhile p = run ∧ (run ++ after).dropWhile p = after := by
  rw [List.takeWhile_append_of_pos all, List.dropWhile_append_of_pos all]
  cases after with
  | nil => simp
  | cons c rest =>
      have other : p c = false := by simpa using stop
      simp [other]

theorem hex4_hexDigit : ∀ n < 32,
    Json.hex4? '0' '0' (Text.hexDigit (n / 16)) (Text.hexDigit (n % 16)) = some n := by
  decide

theorem readString_escaped (c : Char) (rest : List Char) :
    readString (Text.escaped c ++ rest) =
      (readString rest).map fun read => (c :: read.1, read.2) := by
  rw [Text.escaped]
  split_ifs with quote backslash line carriage tab back form control
  · subst c; rfl
  · subst c; rfl
  · subst c; rfl
  · subst c; rfl
  · subst c; rfl
  · subst c; rfl
  · subst c; rfl
  · have digits := hex4_hexDigit c.toNat control
    have valid : c.toNat.isValidChar := c.valid
    simp [readString, digits, valid]
  · simp [readString, backslash, line, carriage]

theorem readString_quoted (value : String) (after : List Char) :
    readString (value.toList.flatMap Text.escaped ++ '"' :: after) =
      some (value.toList, after) := by
  induction value.toList with
  | nil => rfl
  | cons c rest ih => rw [List.flatMap_cons, List.append_assoc, readString_escaped, ih]; rfl

/-- Whether a token can be written before the character: nothing makes it longer. -/
def Token.EndsBefore (A : Alphabet) (next : Option Char) : Token → Prop
  | .name text => A.IsName text ∧ A.partsFrom next
  | .keyword word => word ∈ reserved ∧ A.partsFrom next
  | .number text => IsNumeral text.toList ∧ A.partsFrom next ∧ ('.' ∈ text.toList ∨ next ≠ some '.')
  | .string _ => True
  | .mark m => m.endsBefore next

section
variable {A : Alphabet} {after : List Char}

theorem readToken_word {word : String} (isWord : A.IsWord word)
    (stop : A.partsFrom after.head?) :
    A.readToken (word.toList ++ after) = some (.ofWord word, after) := by
  obtain ⟨⟨c, first, start⟩, parts⟩ := isWord
  obtain ⟨rest, chars⟩ : ∃ rest, word.toList = c :: rest := by
    cases chars : word.toList with
    | nil => simp [chars] at first
    | cons d rest => simp_all
  obtain ⟨taken, dropped⟩ := takeWhile_append_stop parts stop
  have read : A.readToken (c :: (rest ++ after)) =
      some (.ofWord (String.ofList ((word.toList ++ after).takeWhile A.isPart)),
        (word.toList ++ after).dropWhile A.isPart) := by
    simp [Alphabet.readToken, start, chars]
  rw [chars, List.cons_append, read, taken, dropped, String.ofList_toList]

theorem IsNumeral.digit_first {chars : List Char} (numeral : IsNumeral chars) :
    ∃ c rest, chars = c :: rest ∧ c.isDigit := by
  have first : ∀ {digits : List Char}, IsWhole digits → ∃ c rest, digits = c :: rest ∧ c.isDigit := by
    intro digits isWhole
    cases digits with
    | nil => exact absurd rfl isWhole.1
    | cons c rest => exact ⟨c, rest, rfl, isWhole.2.1 c List.mem_cons_self⟩
  cases numeral with
  | whole isWhole => exact first isWhole
  | decimal isWhole _ =>
      obtain ⟨c, rest, rfl, digit⟩ := first isWhole
      exact ⟨c, rest ++ '.' :: _, rfl, digit⟩

-- A mark begins with no character that words, numbers or strings begin with.
theorem Mark.first_char (m : Mark) (A : Alphabet) {c : Char} {rest : List Char} (chars : m.text = c :: rest) :
    A.isStart c = false ∧ c.isDigit = false ∧ c ≠ '"' := by
  have ascii : c.toNat ≤ 127 := by cases m <;> cases chars <;> decide
  rw [A.isStart_of_ascii ascii]
  cases m <;> cases chars <;> decide

theorem readNumber_numeral {text : String} (numeral : IsNumeral text.toList)
    (stop : A.partsFrom after.head?) (point : '.' ∈ text.toList ∨ after.head? ≠ some '.') :
    A.readNumber (text.toList ++ after) = some (.number text, after) := by
  generalize shape : text.toList = chars at *
  have same : String.ofList chars = text := by rw [← shape, String.ofList_toList]
  have digitStop : after.head?.all fun c => !c.isDigit := by
    cases after with
    | nil => rfl
    | cons c rest =>
        have noPart : A.isPart c = false := by simpa [Alphabet.partsFrom] using stop
        have noDigit : c.isDigit = false := by
          by_contra digit
          simp [A.isPart_of_isDigit (by simpa using digit)] at noPart
        simp [noDigit]
  cases numeral with
  | whole isWhole =>
      obtain ⟨taken, dropped⟩ := takeWhile_append_stop isWhole.2.1 digitStop
      have noPoint : after.head? ≠ some '.' := by
        apply point.resolve_left
        intro member
        have digit := isWhole.2.1 _ member
        simp at digit
      rw [Alphabet.readNumber, taken, dropped]
      cases after with
      | nil => simp [isWhole, same, Alphabet.partsFrom]
      | cons c rest =>
          have other : c ≠ '.' := by simpa using noPoint
          rw [List.head?_cons] at stop
          simp [isWhole, same, stop, other]
  | @decimal digits fraction isWhole fractional =>
      have noDigit : ('.' :: (fraction ++ after)).head?.all fun c => !c.isDigit := rfl
      obtain ⟨taken, dropped⟩ := takeWhile_append_stop isWhole.2.1 noDigit
      obtain ⟨takenAfter, droppedAfter⟩ := takeWhile_append_stop fractional digitStop
      rw [List.append_assoc, List.cons_append, Alphabet.readNumber, taken, dropped]
      simp [takenAfter, droppedAfter, isWhole, same, stop]

-- A token is read as it is written wherever nothing makes it longer.
theorem readToken_text (t : Token) (ends : t.EndsBefore A after.head?) :
    A.readToken (t.text ++ after) = some (t, after) := by
  cases t with
  | name text =>
      obtain ⟨⟨isWord, free⟩, stop⟩ := ends
      rw [Token.text, readToken_word isWord stop, Token.ofWord, if_neg free]
  | keyword word =>
      obtain ⟨member, stop⟩ := ends
      rw [Token.text, readToken_word (A.isWord_of_mem_reserved member) stop, Token.ofWord,
        if_pos member]
  | number text =>
      obtain ⟨numeral, stop, point⟩ := ends
      obtain ⟨c, rest, chars, digit⟩ := numeral.digit_first
      rw [Token.text, ← readNumber_numeral numeral stop point, chars, List.cons_append,
        Alphabet.readToken, A.isStart_of_isDigit digit, if_neg Bool.false_ne_true, if_pos digit]
  | string value =>
      have noStart : A.isStart '"' = false := A.isStart_of_ascii (by decide)
      have read := readString_quoted value after
      simp [Token.text, Text.quoted, Alphabet.readToken, noStart, read]
  | mark m =>
      have read := m.read_text_append after ends
      cases chars : m.text with
      | nil => exact absurd chars m.text_ne_nil
      | cons c rest =>
          obtain ⟨noStart, noDigit, noQuote⟩ := m.first_char A chars
          rw [chars, List.cons_append] at read
          simp [Token.text, chars, Alphabet.readToken, noStart, noDigit, noQuote, read]

end
end CallReplacement.JavaScript
