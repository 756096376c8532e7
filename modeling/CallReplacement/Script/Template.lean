import CallReplacement.Script.Rendered

/-!
Raw text with placeholders. `$N` stands for argument `N`, where `N` is the longest run of
digits, and `$N...` for the arguments from `N` on, separated by commas. A dollar sign before
anything else, and a placeholder for arguments that are not there, stand for themselves.

A template is cut at its dollar signs first; the text of an argument is never looked at again.
-/

namespace CallReplacement.Template

inductive Piece
  | dollar
  | argument (digits : List Char)
  | spread (digits : List Char)
deriving DecidableEq, Repr

def index (digits : List Char) : Nat :=
  digits.foldl (fun n c => 10 * n + (c.toNat - 48)) 0

/-- Splits the text between two dollar signs into what the first begins and the plain rest. -/
def piece (segment : List Char) : Piece × List Char :=
  let digits := segment.takeWhile Char.isDigit
  let rest := segment.dropWhile Char.isDigit
  if digits.isEmpty then (.dollar, segment)
  else match rest with
    | '.' :: '.' :: '.' :: tail => (.spread digits, tail)
    | _ => (.argument digits, rest)

def Piece.text (args : List Rendered) : Piece → String
  | .dollar => "$"
  | .argument digits =>
      match args[index digits]? with
      | some arg => arg.atLeast .call
      | none => "$" ++ String.ofList digits
  | .spread digits =>
      if index digits ≤ args.length then Rendered.list (args.drop (index digits))
      else "$" ++ String.ofList digits ++ "..."

def substitute (template : String) (args : List Rendered) : String :=
  let cut := Text.segments '$' template.toList
  String.ofList cut.1 ++
    String.join (cut.2.map fun segment =>
      (piece segment).1.text args ++ String.ofList (piece segment).2)

end CallReplacement.Template
