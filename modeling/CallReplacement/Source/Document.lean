import CallReplacement.Json.Shapes

/-!
Source files from the text of their documents. A document is read first and then checked to be
well formed.
-/

namespace CallReplacement

inductive DocumentFault
  /-- It cannot be read; `offset` is the byte at which that showed, unless the text is JSON. -/
  | unreadable (fault : ReadFault) (offset : Option Nat)
  | illFormed (fault : SourceFault)
deriving DecidableEq, Repr

namespace DocumentFault

def text : DocumentFault → String
  | .unreadable .. => "failed to parse typed AST"
  | .illFormed fault => fault.text

def code : DocumentFault → String
  | .unreadable .. => "graft::source::parse"
  | .illFormed fault => fault.code

def help : DocumentFault → String
  | .unreadable .. => "the typed AST must be the JSON produced by the front end"
  | .illFormed fault => fault.help

end DocumentFault

def ReadFault.offset? (document : String) : ReadFault → Option Nat
  | .malformed consumed | .unfinished consumed => Text.offsetAfter (Text.bytes document) consumed
  | .misfit => none

namespace SourceFile

def ofText (document : String) : Except DocumentFault SourceFile :=
  match shape.parseAs ofJson? document with
  | .error fault => .error (.unreadable fault (fault.offset? document))
  | .ok file =>
      match file.fault? with
      | some fault => .error (.illFormed fault)
      | none => .ok file

end SourceFile
end CallReplacement
