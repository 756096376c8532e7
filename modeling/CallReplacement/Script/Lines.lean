import CallReplacement.Script.Indent
import CallReplacement.Text.Segments

/-!
Lines of emitted code, recorded at a nesting depth. A text that holds line breaks is recorded
line by line, so that its later lines are indented like its first.
-/

namespace CallReplacement

structure Lines where
  indent : Indent
  depth : Nat := 0
  recorded : List String := []

namespace Lines

/-- One line at a depth; an empty line stays empty. -/
def indented (indent : Indent) (depth : Nat) (line : List Char) : String :=
  if line.isEmpty then "" else indent.text depth ++ String.ofList line

def line (l : Lines) (text : String) : Lines :=
  let cut := Text.segments '\n' text.toList
  { l with recorded := l.recorded ++ (cut.1 :: cut.2).map (indented l.indent l.depth) }

def blank (l : Lines) : Lines := { l with recorded := l.recorded ++ [""] }

def enter (l : Lines) : Lines := { l with depth := l.depth + 1 }

def leave (l : Lines) : Lines := { l with depth := l.depth - 1 }

def nested (l : Lines) (block : Lines → Lines) : Lines := (block l.enter).leave

def isEmpty (l : Lines) : Bool := l.recorded.isEmpty

def text (l : Lines) : String := String.join (l.recorded.map (· ++ "\n"))

end Lines
end CallReplacement
