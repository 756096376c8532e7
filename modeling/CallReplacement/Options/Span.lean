import CallReplacement.Text.Blank
import CallReplacement.Text.Place

/-!
Where an entry of a list stands in the text of a configuration document. The list is found by
its key, which is the first thing on a line and is followed by an equals sign and a bracket; an
entry is found by its text between double quotes. Spans are counted in bytes.
-/

namespace CallReplacement

structure Span where
  offset : Nat
  length : Nat
deriving DecidableEq, Repr

namespace Text

def strip? : (first text : List Char) → Option (List Char)
  | [], text => some text
  | _, [] => none
  | f :: first, c :: text => if f = c then strip? first text else none

theorem strip?_eq_some_iff {first text rest : List Char} :
    strip? first text = some rest ↔ text = first ++ rest := by
  induction first generalizing text with
  | nil => simp [strip?]
  | cons f first ih =>
      cases text with
      | nil => simp [strip?]
      | cons c text =>
          by_cases h : f = c
          · simp [strip?, h, ih]
          · simp [strip?, h, Ne.symm h]

def listAfter? (key text : List Char) : Option (List Char) := do
  let assigned ← strip? key text
  let value ← strip? ['='] (unindented assigned)
  strip? ['['] (unindented value)

/-- The list of a key with the place where its first entry may stand. `blank` says whether
there are only blanks before on the line. -/
def listFrom? (key : List Char) (place : Nat) (blank : Bool) :
    List Char → Option (Nat × List Char)
  | [] => none
  | c :: rest =>
      match if blank then listAfter? key (c :: rest) else none with
      | some list =>
          some (place + (byteLength (c :: rest) - byteLength list), list.takeWhile (· ≠ ']'))
      | none => listFrom? key (place + c.utf8Size) (c = '\n' || (blank && isBlank c)) rest

/-- The places where a text occurs, none beginning within the one before. So many characters
are skipped first. -/
def occurrences (wanted : List Char) (place : Nat) : (skipped : Nat) → List Char → List Nat
  | _, [] => []
  | skipped + 1, c :: rest => occurrences wanted (place + c.utf8Size) skipped rest
  | 0, c :: rest =>
      if wanted.isPrefixOf (c :: rest) then
        place :: occurrences wanted (place + c.utf8Size) (wanted.length - 1) rest
      else occurrences wanted (place + c.utf8Size) 0 rest

end Text

def Span.ofEntry? (document key entry : String) (before : Nat) : Option Span := do
  let (place, list) ← Text.listFrom? key.toList 0 true document.toList
  let quoted := '"' :: entry.toList ++ ['"']
  let found ← (Text.occurrences quoted place 0 list)[before]?
  some ⟨found + 1, Text.byteLength entry.toList⟩

end CallReplacement
