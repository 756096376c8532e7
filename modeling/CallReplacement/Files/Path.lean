import CallReplacement.Text.Segments

/-!
Paths, as texts with slashes. The parts of a path that are empty or a single dot say nothing,
but for a dot at the front.
-/

namespace CallReplacement.Path

def parts (path : String) : List String :=
  let cut := Text.segments '/' path.toList
  (cut.1 :: cut.2).map String.ofList

def saysNothing (part : String) : Bool := part == "" || part == "."

def trimmed (rest : List String) : List String := (rest.reverse.dropWhile saysNothing).reverse

/-- The path of the directory that holds a file, which may be empty. The empty path and the
root have none. -/
def parent? (path : String) : Option String :=
  match parts path with
  | [] => none
  | first :: rest =>
      match trimmed rest with
      | [] => if first == "" then none else some ""
      | rest =>
          match trimmed rest.dropLast with
          | [] => some (if first == "" then "/" else first)
          | above => some (Text.joined "/" (first :: above))

def child (directory name : String) : String :=
  if directory == "" || directory.toList.getLast? == some '/' then directory ++ name
  else directory ++ "/" ++ name

def maxLength : Nat := 4095

def maxPartLength : Nat := 255

end CallReplacement.Path
