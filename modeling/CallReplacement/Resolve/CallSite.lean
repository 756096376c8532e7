import CallReplacement.Expr
import CallReplacement.Failure
import CallReplacement.Source.Member

/-!
Call sites as handlers see them: the member that is called, with receiver and arguments
already in target form.
-/

namespace CallReplacement

structure CallSite where
  owner : String
  member : String
  kind : MemberKind
  receiver : Option Expr
  args : List Expr
  returnType : ValueType
  range : Option SourceRange
  attributes : List Attribute
  callGenerics : List ValueType
  memberGenerics : List ValueType
  signature : List ValueType
  /-- The number of parameters of each argument that is a function value. -/
  lambdaArities : List (Option Nat)
deriving Repr

namespace CallSite

def ofMember (m : MemberRef) (receiver : Option Expr) (args : List Expr) : CallSite where
  owner := m.entity
  member := m.memberName
  kind := m.kind
  receiver
  args
  returnType := m.returnType
  range := none
  attributes := m.attributes
  callGenerics := []
  memberGenerics := m.generics
  signature := m.signature
  lambdaArities := args.map fun arg => arg.type.lambdaArity

def ownerName (s : CallSite) : String := lastName s.owner

def fullName (s : CallSite) : String := s.owner ++ "." ++ s.member

def isConstructor (s : CallSite) : Bool := s.kind == .constructor

def isStatic (s : CallSite) : Bool := s.receiver.isNone

def lambdaArity (s : CallSite) (index : Nat) : Option Nat := (s.lambdaArities[index]?).join

def hasAttribute (s : CallSite) (fullName : String) : Bool :=
  s.attributes.any (·.fullName == fullName)

def unsupportedShape (s : CallSite) : Failure :=
  .callShape s.owner s.member s.args.length s.range

def target (s : CallSite) : Expr :=
  s.receiver.getD (.named s.ownerName (.declared s.owner []))

/-- The call as written: `new Owner(args)` for a constructor, `target.member` for a property
or field that is read, and `target.member(args)` for everything else. -/
def asWritten (s : CallSite) : Expr :=
  let e : Expr :=
    if s.isConstructor then
      .call (.typed s.returnType) .construct (.named s.ownerName (.declared s.owner [])) s.args
    else if s.kind.isAccessor && s.args.isEmpty then
      .field (.typed s.returnType) s.target s.member
    else
      .call (.typed s.returnType) .direct
        (.field (.typed (.lambda s.signature s.returnType)) s.target s.member) s.args
  e.located s.range

end CallSite
end CallReplacement
