/-!
Source locations. A position is a line and a column; a range joins two positions and names
its file when that is known. The union of two ranges is the smallest range over both.
-/

namespace CallReplacement

/-- A line, counted from one, and a column, counted from zero. -/
structure Position where
  line : UInt32
  column : UInt32
deriving DecidableEq, Repr

def Position.before (a b : Position) : Bool :=
  a.line < b.line || (a.line == b.line && a.column < b.column)

def Position.earlier (a b : Position) : Position := if b.before a then b else a

def Position.later (a b : Position) : Position := if a.before b then b else a

def Position.text (p : Position) : String := s!"{p.line}:{p.column}"

structure SourceRange where
  file : Option String
  start : Position
  stop : Position
deriving DecidableEq, Repr

namespace SourceRange

def inFile (r : SourceRange) (file : String) : SourceRange := { r with file := some file }

/-- The smallest range over both; the file of the first wins when both name one. -/
def union (a b : SourceRange) : SourceRange where
  file := a.file.or b.file
  start := a.start.earlier b.start
  stop := a.stop.later b.stop

def text (r : SourceRange) : String :=
  let span := r.start.text ++ "-" ++ r.stop.text
  match r.file with
  | some file => file ++ ":" ++ span
  | none => span

end SourceRange
end CallReplacement
