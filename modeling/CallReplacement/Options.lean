/-!
The settings of one compilation run. They are fixed before the run starts.
-/

namespace CallReplacement

inductive ModuleFormat
  | esm
  | commonjs
deriving DecidableEq, Repr

def ModuleFormat.all : List ModuleFormat := [.esm, .commonjs]

def ModuleFormat.name : ModuleFormat → String
  | .esm => "esm"
  | .commonjs => "commonjs"

structure Options where
  moduleFormat : ModuleFormat := .esm
  debug : Bool := false
  define : List String := []
  plugins : List String := []
  /-- Owners whose name starts so are reported when a call to them is left as written. -/
  warnPassthrough : List String := ["System."]
deriving DecidableEq, Repr

namespace Options

def isDefined (o : Options) (symbol : String) : Bool := o.define.contains symbol

def warnsOnPassthrough (o : Options) (owner : String) : Bool :=
  o.warnPassthrough.any fun start => start.toList.isPrefixOf owner.toList

end Options
end CallReplacement
