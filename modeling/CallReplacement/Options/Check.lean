import CallReplacement.Options.Layout
import CallReplacement.Options.Span

/-!
Options from the text of a configuration document, and what is wrong with them. Names of
plugins are neither blank nor repeated, symbols are identifiers of letters, digits and
underscores, and no start of an owner's name is empty. The first fault counts: plugins in their
order, then symbols, then starts.
-/

namespace CallReplacement

inductive SymbolFlaw
  | empty
  | badStart
  | badCharacter
deriving DecidableEq, Repr

def SymbolFlaw.text : SymbolFlaw → String
  | .empty => "symbol cannot be empty"
  | .badStart => "symbol must start with a letter or underscore"
  | .badCharacter => "symbol contains invalid characters"

def symbolFlaw? (symbol : String) : Option SymbolFlaw :=
  match symbol.toList with
  | [] => some .empty
  | c :: rest =>
      if !(c.isAlpha || c == '_') then some .badStart
      else if rest.any fun d => !(d.isAlphanum || d == '_') then some .badCharacter
      else none

inductive OptionsFault
  /-- The document is not well formed, or has entries that it should not have. The place may
  be unknown. -/
  | malformed (isLocated : Bool)
  | blankPlugin
  | duplicatePlugin (name : String) (span : Option Span)
  | invalidSymbol (symbol : String) (flaw : SymbolFlaw) (span : Option Span)
  | emptyStart (span : Option Span)
deriving DecidableEq, Repr

namespace OptionsFault

def text : OptionsFault → String
  | .malformed _ => "failed to parse graft.toml"
  | .blankPlugin => "plugin names cannot be empty"
  | .duplicatePlugin name _ => "plugin '" ++ name ++ "' is listed more than once"
  | .invalidSymbol symbol _ _ => "invalid define symbol '" ++ symbol ++ "'"
  | .emptyStart _ => "warn_passthrough prefixes cannot be empty"

def code : OptionsFault → String
  | .malformed _ => "graft::config::parse"
  | .duplicatePlugin .. => "graft::config::duplicate_plugin"
  | .invalidSymbol .. => "graft::config::invalid_define"
  | .blankPlugin | .emptyStart _ => "graft::config::validation"

def help : OptionsFault → Option String
  | .duplicatePlugin name _ =>
      some ("plugins run in the listed order; keep a single entry for '" ++ name ++ "'")
  | .invalidSymbol _ flaw _ =>
      some (flaw.text
        ++ ". Use only letters, digits and underscores, starting with a letter or underscore.")
  | _ => none

def span : OptionsFault → Option Span
  | .duplicatePlugin _ span | .invalidSymbol _ _ span | .emptyStart span => span
  | _ => none

def label : OptionsFault → String
  | .duplicatePlugin .. => "duplicate entry"
  | .invalidSymbol .. => "invalid symbol"
  | fault => fault.text

end OptionsFault

namespace Options

section
variable (document : String)

def pluginFault? (before : List String) : List String → Option OptionsFault
  | [] => none
  | name :: rest =>
      if name.toList.all Text.isBlank then some .blankPlugin
      else if before.contains name then
        some (.duplicatePlugin name (Span.ofEntry? document "plugins" name 1))
      else pluginFault? (before ++ [name]) rest

def symbolFault? (symbols : List String) : Option OptionsFault :=
  symbols.findSome? fun symbol =>
    (symbolFlaw? symbol).map fun flaw =>
      .invalidSymbol symbol flaw (Span.ofEntry? document "define" symbol 0)

def startFault? (starts : List String) : Option OptionsFault :=
  if starts.any String.isEmpty then
    some (.emptyStart (Span.ofEntry? document "warn_passthrough" "" 0))
  else none

def fault? (o : Options) : Option OptionsFault :=
  (pluginFault? document [] o.plugins).or
    ((symbolFault? document o.define).or (startFault? document o.warnPassthrough))

end

def ofText (document : String) : Except OptionsFault Options :=
  match Toml.parse document with
  | .error fault => .error (.malformed fault.isLocated)
  | .ok entries =>
      match ofToml? entries with
      | none => .error (.malformed true)
      | some options =>
          match options.fault? document with
          | some fault => .error fault
          | none => .ok options

end Options
end CallReplacement
