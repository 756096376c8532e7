import CallReplacement.Catalog
import CallReplacement.Files.Path
import CallReplacement.Options.Check
import CallReplacement.Source.Document

/-!
What a command reads from files: the source, and the options, which are in the file that it was
given or in one of a fixed name next to the source. A view says what reading a file gives; how
the files are kept is left open.
-/

namespace CallReplacement

inductive FileFault
  | missing
  | directory
  | throughFile
  | invalidPath
  | longPath
  | notText
  | other (text : String)
deriving DecidableEq, Repr

structure Files where
  read : String → Except FileFault String
  isFile : String → Bool

inductive LoadFault
  | sourceFile (path : String) (fault : FileFault)
  | source (fault : DocumentFault)
  | optionsFile (path : String) (fault : FileFault)
  | options (fault : OptionsFault)
  | registry (fault : RegistryFault)
deriving DecidableEq, Repr

namespace LoadFault

def text : LoadFault → String
  | .sourceFile path _ | .optionsFile path _ => "failed to read '" ++ path ++ "'"
  | .source fault => fault.text
  | .options fault => fault.text
  | .registry fault => fault.text

def code : LoadFault → Option String
  | .sourceFile .. => some "graft::source::io"
  | .source fault => some fault.code
  | .optionsFile .. => none
  | .options fault => some fault.code
  | .registry fault => some fault.code

def help : LoadFault → Option String
  | .sourceFile .. => none
  | .source fault => some fault.help
  | .optionsFile .. => some "pass --config or create a graft.toml next to the input"
  | .options fault => fault.help
  | .registry fault => some fault.help

end LoadFault

def Options.fileName : String := "graft.toml"

namespace Files

variable (files : Files)

def source (path : String) : Except LoadFault SourceFile :=
  match files.read path with
  | .error fault => .error (.sourceFile path fault)
  | .ok document => (SourceFile.ofText document).mapError .source

def options (path : String) : Except LoadFault Options :=
  match files.read path with
  | .error fault => .error (.optionsFile path fault)
  | .ok document => (Options.ofText document).mapError .options

def discover (directory : String) : Except LoadFault (Option (String × Options)) :=
  let path := Path.child directory Options.fileName
  if files.isFile path then (files.options path).map fun found => some (path, found)
  else .ok none

def besides (input : String) : String :=
  match Path.parent? input with
  | some "" | none => "."
  | some directory => directory

/-- The options of a given file, or else of the one next to the source, or else the default. -/
def optionsFor (config : Option String) (input : String) : Except LoadFault Options :=
  match config with
  | some path => files.options path
  | none => (files.discover (besides input)).map fun found => (found.map Prod.snd).getD {}

end Files
end CallReplacement
