import CallReplacement.Source.Expr

/-!
Typed source files. A file is well formed when its declarations have different names and no
call of a constructor has a receiver; `SourceFile.check` finds the first fault, names first.
-/

namespace CallReplacement

structure SourceDeclaration where
  name : String
  isPublic : Bool
  body : SourceExpr
  range : Option SourceRange
deriving Repr

structure SourceFile where
  path : String
  declarations : List SourceDeclaration
deriving Repr

def firstRepeat [BEq α] : List α → Option α := go []
where
  go (seen : List α) : List α → Option α
    | [] => none
    | x :: rest => if seen.contains x then some x else go (x :: seen) rest

inductive SourceFault
  | duplicateDeclaration (file name : String)
  | constructorReceiver (file entity : String) (range : Option SourceRange)
deriving DecidableEq, Repr

namespace SourceFault

def text : SourceFault → String
  | .duplicateDeclaration _ name => "duplicate declaration '" ++ name ++ "'"
  | .constructorReceiver _ entity _ => "constructor call to '" ++ entity ++ "' has a receiver"

def code : SourceFault → String
  | .duplicateDeclaration .. => "graft::source::duplicate_declaration"
  | .constructorReceiver .. => "graft::source::constructor_receiver"

def help : SourceFault → String
  | .duplicateDeclaration .. => "every module-level binding must have a unique name"
  | .constructorReceiver .. =>
      "constructors are static; the front end must not attach a receiver"

end SourceFault

namespace SourceExpr

def isCall : SourceExpr → Bool
  | .call .. => true
  | _ => false

/-- The called constructor and the range of the call, if it has a receiver. -/
def constructorWithReceiver? : SourceExpr → Option (String × Option SourceRange)
  | .call member (some _) _ _ range =>
      if member.isConstructor then some (member.entity, range) else none
  | _ => none

end SourceExpr

namespace SourceFile

def calls (file : SourceFile) : List SourceExpr :=
  file.declarations.flatMap fun d => d.body.subterms.filter SourceExpr.isCall

def fault? (file : SourceFile) : Option SourceFault :=
  match firstRepeat (file.declarations.map SourceDeclaration.name) with
  | some name => some (.duplicateDeclaration file.path name)
  | none =>
      (file.calls.findSome? SourceExpr.constructorWithReceiver?).map fun (entity, range) =>
        .constructorReceiver file.path entity range

end SourceFile
end CallReplacement
