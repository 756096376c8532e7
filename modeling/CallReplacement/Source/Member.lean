import CallReplacement.Literal
import CallReplacement.Text.Segments

/-!
Members of declared entities, as call sites refer to them.
-/

namespace CallReplacement

inductive MemberKind
  | method | constructor | property | field
deriving DecidableEq, Repr

namespace MemberKind

def all : List MemberKind := [.method, .constructor, .property, .field]

def name : MemberKind → String
  | .method => "method"
  | .constructor => "constructor"
  | .property => "property"
  | .field => "field"

/-- Properties and fields are read without an argument list. -/
def isAccessor : MemberKind → Bool
  | .property | .field => true
  | _ => false

end MemberKind

structure Attribute where
  fullName : String
  args : List Literal
deriving Repr

structure MemberRef where
  entity : String
  /-- The name under which the member was compiled. -/
  name : String
  kind : MemberKind
  isInstance : Bool
  attributes : List Attribute
  generics : List ValueType
  signature : List ValueType
  returnType : ValueType
deriving Repr

def lastName (fullName : String) : String :=
  String.ofList (Text.lastSegment '.' fullName.toList)

/-- The name that every constructor goes by. No identifier begins with a dot. -/
def constructorName : String := ".ctor"

namespace MemberRef

def isConstructor (m : MemberRef) : Bool := m.kind == .constructor

def memberName (m : MemberRef) : String := if m.isConstructor then constructorName else m.name

def fullName (m : MemberRef) : String := m.entity ++ "." ++ m.memberName

def entityName (m : MemberRef) : String := lastName m.entity

def hasAttribute (m : MemberRef) (fullName : String) : Bool :=
  m.attributes.any (·.fullName == fullName)

end MemberRef
end CallReplacement
