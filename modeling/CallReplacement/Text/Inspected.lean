import CallReplacement.Text.Shapeless

/-!
Text as a developer wants to see it: between double quotes, with every character that would
not show, or would merge with its neighbour, written by its code point.
-/

namespace CallReplacement.Text

def shown (c : Char) : List Char :=
  if c = '"' then ['\\', '"']
  else if c = '\\' then ['\\', '\\']
  else if c = '\n' then ['\\', 'n']
  else if c = '\r' then ['\\', 'r']
  else if c = '\t' then ['\\', 't']
  else if c = '\x00' then ['\\', '0']
  else if isShapeless c then
    ['\\', 'u', '\x7b'] ++ Nat.toDigits 16 c.toNat ++ ['\x7d']
  else [c]

/-- The text between double quotes, with nothing in it that does not show. -/
def inspected (text : String) : String :=
  String.ofList ('"' :: text.toList.flatMap shown ++ ['"'])

end CallReplacement.Text
