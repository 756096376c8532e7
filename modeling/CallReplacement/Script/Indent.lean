/-!
Indentation units of emitted code.
-/

namespace CallReplacement

inductive Indent
  | tab
  | blanks (width : Nat)
deriving DecidableEq, Repr

namespace Indent

/-- Blanks of a width that is kept between one and eight. -/
def ofWidth (width : Nat) : Indent := .blanks (max 1 (min width 8))

def standard : Indent := .blanks 2

def isTab : Indent → Bool
  | .tab => true
  | .blanks _ => false

def unit : Indent → List Char
  | .tab => ['\t']
  | .blanks width => List.replicate width ' '

def text (i : Indent) (depth : Nat) : String :=
  String.ofList (List.replicate depth i.unit).flatten

end Indent
end CallReplacement
