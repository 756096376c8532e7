import Mathlib.Data.List.Basic

/-!
Punctuators of JavaScript expressions. The longest punctuator that the text begins with is the
one that is read. A text that goes on to one that expressions here never use, as an increment
does after a minus sign, is not read at all: two minus signs in a row are no negation of a
negation.
-/

namespace CallReplacement.JavaScript

inductive Mark
  | openParen | closeParen | openBracket | closeBracket | openBrace | closeBrace
  | dot | comma | semicolon | colon | question | arrow | assign
  | plus | minus | star | slash | percent
  | less | lessOrEqual | greater | greaterOrEqual | same | different
  | and | or | not
deriving DecidableEq, Repr

namespace Mark

def text : Mark → List Char
  | .openParen => ['('] | .closeParen => [')']
  | .openBracket => ['['] | .closeBracket => [']']
  | .openBrace => ['\x7b'] | .closeBrace => ['\x7d']
  | .dot => ['.'] | .comma => [','] | .semicolon => [';']
  | .colon => [':'] | .question => ['?']
  | .arrow => ['=', '>'] | .assign => ['=']
  | .plus => ['+'] | .minus => ['-'] | .star => ['*'] | .slash => ['/'] | .percent => ['%']
  | .less => ['<'] | .lessOrEqual => ['<', '='] | .greater => ['>'] | .greaterOrEqual => ['>', '=']
  | .same => ['=', '=', '='] | .different => ['!', '=', '=']
  | .and => ['&', '&'] | .or => ['|', '|'] | .not => ['!']

/-- The characters that make a longer punctuator, a number or a comment of the mark. -/
def grows : Mark → List Char
  | .dot => '.' :: ['0', '1', '2', '3', '4', '5', '6', '7', '8', '9']
  | .question => ['?', '.']
  | .assign => ['=', '>']
  | .plus => ['+', '=']
  | .minus => ['-', '=']
  | .star => ['*', '=']
  | .slash => ['/', '*', '=']
  | .percent => ['=']
  | .less => ['<', '=']
  | .greater => ['>', '=']
  | .and | .or | .not => ['=']
  | _ => []

/-- All marks, the longer ones first. -/
def all : List Mark :=
  [.same, .different, .arrow, .lessOrEqual, .greaterOrEqual, .and, .or,
    .openParen, .closeParen, .openBracket, .closeBracket, .openBrace, .closeBrace,
    .dot, .comma, .semicolon, .colon, .question, .assign,
    .plus, .minus, .star, .slash, .percent, .less, .greater, .not]

/-- Whether the mark ends before the character. -/
def endsBefore (m : Mark) (next : Option Char) : Bool :=
  next.all fun c => !m.grows.contains c

/-- The longest mark at the front of a text, if it does not go on to another punctuator. -/
def read (text : List Char) : Option (Mark × List Char) :=
  (all.find? fun m => m.text.isPrefixOf text).bind fun m =>
    let after := text.drop m.text.length
    if m.endsBefore after.head? then some (m, after) else none

theorem text_ne_nil (m : Mark) : m.text ≠ [] := by
  cases m <;> simp [text]

-- No earlier mark of the list gets in the way: one that begins alike is ruled out by what
-- follows.
theorem find_text_append (m : Mark) (after : List Char) (ends : m.endsBefore after.head?) :
    (all.find? fun candidate => candidate.text.isPrefixOf (m.text ++ after)) = some m := by
  cases after with
  | nil => cases m <;> rfl
  | cons c rest =>
      cases m with
      | assign =>
          have other : c ≠ '=' ∧ c ≠ '>' := by simpa [endsBefore, grows] using ends
          simp [all, text, List.isPrefixOf, other.1.symm, other.2.symm]
      | less | greater | not =>
          have other : c ≠ '=' := by
            rintro rfl
            simp [endsBefore, grows] at ends
          simp [all, text, List.isPrefixOf, other.symm]
      | _ => rfl

theorem read_text_append (m : Mark) (after : List Char) (ends : m.endsBefore after.head?) :
    read (m.text ++ after) = some (m, after) := by
  rw [read, find_text_append m after ends, Option.bind_some, List.drop_left, if_pos ends]

end Mark
end CallReplacement.JavaScript
