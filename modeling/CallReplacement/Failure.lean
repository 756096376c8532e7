import CallReplacement.Location

/-!
What can end a run. A failure is a message, possibly under messages that say what was being
done, or one of the three faults of the compiler itself. The latter keep their own form when
they pass through handlers: `compileFault?` finds them under any number of such messages.
-/

namespace CallReplacement

inductive Failure
  | message (text : String)
  | context (text : String) (cause : Failure)
  | callShape (owner member : String) (count : Nat) (range : Option SourceRange)
  | handler (name owner member : String) (range : Option SourceRange) (cause : Failure)
  | transformer (name file : String) (cause : Failure)
deriving DecidableEq, Repr

namespace Failure

def place : Option SourceRange → String
  | some range => " at " ++ range.text
  | none => ""

def text : Failure → String
  | .message text => text
  | .context text _ => text
  | .callShape owner member count range =>
      "unresolvable call shape: " ++ owner ++ "." ++ member ++ " called with " ++ toString count
        ++ " argument(s)" ++ place range
  | .handler name owner member range _ =>
      "handler '" ++ name ++ "' failed on " ++ owner ++ "." ++ member ++ place range
  | .transformer name file _ => "AST transformer '" ++ name ++ "' failed on '" ++ file ++ "'"

def chain : Failure → List String
  | .message text => [text]
  | .context text cause => text :: chain cause
  | .callShape owner member count range => [text (.callShape owner member count range)]
  | .handler name owner member range cause =>
      text (.handler name owner member range cause) :: chain cause
  | .transformer name file cause => text (.transformer name file cause) :: chain cause

/-- The compiler's own fault under any number of messages. -/
def compileFault? : Failure → Option Failure
  | .message _ => none
  | .context _ cause => compileFault? cause
  | .callShape owner member count range => some (.callShape owner member count range)
  | .handler name owner member range cause => some (.handler name owner member range cause)
  | .transformer name file cause => some (.transformer name file cause)

def code : Failure → Option String
  | .callShape .. => some "graft::compile::call_shape"
  | .handler .. => some "graft::compile::handler"
  | .transformer .. => some "graft::compile::rewrite"
  | _ => none

def help : Failure → Option String
  | .callShape owner member count _ =>
      some ("no replacement for " ++ owner ++ "." ++ member ++ " accepts " ++ toString count
        ++ " argument(s)")
  | _ => none

end Failure
end CallReplacement
