import CallReplacement.Files.View

/-!
A tree of files held in memory. A path leads from the root of the tree, step by step; each step
but the last must be a directory, and what holds a file is one. Outside the tree there are
directories, but nothing that can be found by its name.
-/

namespace CallReplacement

structure FileTree where
  entries : List (List String × Option (List UInt8))

namespace FileTree

def empty : FileTree := ⟨[]⟩

inductive Found
  | file (bytes : List UInt8)
  | directory
  | nothing

def lookup (t : FileTree) (steps : List String) : Found :=
  match t.entries.find? (·.1 = steps) with
  | some (_, some bytes) => .file bytes
  | some (_, none) => .directory
  | none => if t.entries.any fun e => steps.isPrefixOf e.1 then .directory else .nothing

inductive Place
  | inside (steps : List String)
  | outside
  | unknown
deriving DecidableEq, Repr

namespace Place

def up : Place → Place
  | .inside [] => .outside
  | .inside steps => .inside steps.dropLast
  | .outside => .outside
  | .unknown => .outside

def down (name : String) : Place → Place
  | .inside steps => .inside (steps ++ [name])
  | .outside => .unknown
  | .unknown => .unknown

end Place

def look (t : FileTree) : Place → Found
  | .inside [] => .directory
  | .inside steps => t.lookup steps
  | .outside => .directory
  | .unknown => .nothing

def walk (t : FileTree) : Place → List String → Except FileFault Place
  | place, [] => .ok place
  | place, part :: rest =>
      match t.look place with
      | .nothing => .error .missing
      | .file _ => .error .throughFile
      | .directory =>
          if Path.saysNothing part then walk t place rest
          else if part = ".." then walk t place.up rest
          else if Path.maxPartLength < part.utf8ByteSize then .error .longPath
          else walk t (place.down part) rest

/-- The place that a path leads to. A slash at its front leads out of the tree. -/
def placeOf (t : FileTree) (path : String) : Except FileFault Place :=
  if path.toList.contains '\x00' then .error .invalidPath
  else if Path.maxLength < path.utf8ByteSize then .error .longPath
  else if path.isEmpty then .error .missing
  else t.walk (if path.toList.head? = some '/' then .outside else .inside []) (Path.parts path)

def read (t : FileTree) (path : String) : Except FileFault String :=
  match t.placeOf path with
  | .error fault => .error fault
  | .ok place =>
      match t.look place with
      | .nothing => .error .missing
      | .directory => .error .directory
      | .file bytes =>
          match String.fromUTF8? ⟨bytes.toArray⟩ with
          | some text => .ok text
          | none => .error .notText

def isFile (t : FileTree) (path : String) : Bool :=
  match t.placeOf path with
  | .ok place => (t.look place matches .file _)
  | .error _ => false

def view (t : FileTree) : Files := ⟨t.read, t.isFile⟩

def insert (t : FileTree) (path : String) (content : Option (List UInt8)) : FileTree :=
  let steps := (Path.parts path).filter (!Path.saysNothing ·)
  ⟨(t.entries.filter (·.1 ≠ steps)) ++ [(steps, content)]⟩

def write (t : FileTree) (path text : String) : Except FileFault FileTree :=
  match t.placeOf path with
  | .error fault => .error fault
  | .ok place =>
      match t.look place, place with
      | .directory, _ => .error .directory
      | _, .inside steps =>
          .ok ⟨(t.entries.filter (·.1 ≠ steps)) ++ [(steps, some text.toUTF8.toList)]⟩
      | _, _ => .error .missing

end FileTree
end CallReplacement
