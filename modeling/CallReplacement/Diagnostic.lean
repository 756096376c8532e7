import CallReplacement.Location

/-!
Messages that a run goes on after.
-/

namespace CallReplacement

inductive Severity
  | error | warning | info
deriving DecidableEq, Repr

namespace Severity

def all : List Severity := [.error, .warning, .info]

def name : Severity → String
  | .error => "error"
  | .warning => "warning"
  | .info => "info"

def rank : Severity → Nat
  | .error => 0
  | .warning => 1
  | .info => 2

end Severity

structure Diagnostic where
  severity : Severity
  phase : String
  message : String
  range : Option SourceRange
deriving DecidableEq, Repr

namespace Diagnostic

def text (d : Diagnostic) : String :=
  let line := d.severity.name ++ ": " ++ d.message
  match d.range with
  | some range => line ++ " (at " ++ range.text ++ ")"
  | none => line

def described (d : Diagnostic) : String :=
  match d.range with
  | some range => d.message ++ "\n  --> " ++ range.text
  | none => d.message

/-- The gravest first; among equals the order is kept. -/
def sorted (ds : List Diagnostic) : List Diagnostic :=
  ds.mergeSort fun a b => a.severity.rank ≤ b.severity.rank

end Diagnostic
end CallReplacement
