/-!
The command line: a command with its arguments, read from left to right. Options may stand
before and behind the input, short ones may be written together, and behind `--` nothing is an
option. A request for help or for the version is granted as soon as it is met; otherwise the
first fault counts.
-/

namespace CallReplacement

inductive CommandName
  | compile
  | check
  | plugins
deriving DecidableEq, Repr

namespace CommandName

def all : List CommandName := [.compile, .check, .plugins]

def text : CommandName → String
  | .compile => "compile"
  | .check => "check"
  | .plugins => "plugins"

def takesInput : CommandName → Bool
  | .compile | .check => true
  | .plugins => false

end CommandName

inductive ValueOption
  | config
  | output
deriving DecidableEq, Repr

namespace ValueOption

def all : List ValueOption := [.config, .output]

def long : ValueOption → String
  | .config => "config"
  | .output => "output"

def short : ValueOption → Char
  | .config => 'c'
  | .output => 'o'

def belongsTo : ValueOption → CommandName → Bool
  | .config, name => name.takesInput
  | .output, name => name = .compile

end ValueOption

inductive UsageFault
  | noCommand
  | unknownCommand (name : String)
  | unexpected (argument : String)
  | noValue (option : String)
  | repeated (option : String)
  | noInput
deriving DecidableEq, Repr

def UsageFault.text : UsageFault → String
  | .noCommand => "a command is required"
  | .unknownCommand name => "unrecognized command '" ++ name ++ "'"
  | .unexpected argument => "unexpected argument '" ++ argument ++ "'"
  | .noValue option => "a value is required for '" ++ option ++ "'"
  | .repeated option => "'" ++ option ++ "' cannot be used multiple times"
  | .noInput => "an input file is required"

structure Arguments where
  verbose : Bool := false
  debug : Bool := false
  config : Option String := none
  output : Option String := none
  input : Option String := none
deriving DecidableEq, Repr

namespace Arguments

def setVerbose (a : Arguments) : Except UsageFault Arguments :=
  if a.verbose then .error (.repeated "--verbose") else .ok { a with verbose := true }

def setDebug (a : Arguments) : Except UsageFault Arguments :=
  if a.debug then .error (.repeated "--debug") else .ok { a with debug := true }

def value (a : Arguments) : ValueOption → Option String
  | .config => a.config
  | .output => a.output

def setValue (a : Arguments) (option : ValueOption) (value : String) :
    Except UsageFault Arguments :=
  if value.isEmpty then .error (.noValue ("--" ++ option.long))
  else if (a.value option).isSome then .error (.repeated ("--" ++ option.long))
  else match option with
    | .config => .ok { a with config := some value }
    | .output => .ok { a with output := some value }

def setInput (a : Arguments) (name : CommandName) (value : String) :
    Except UsageFault Arguments :=
  if !name.takesInput || a.input.isSome then .error (.unexpected value)
  else if value.isEmpty then .error (.noValue "<INPUT>")
  else .ok { a with input := some value }

end Arguments

inductive Progress
  | help
  | version
  | read (a : Arguments)
  | awaiting (a : Arguments) (option : ValueOption)

def isOption (argument : String) : Bool :=
  argument.toList.head? == some '-' && argument != "-"

section
-- The command that the arguments belong to; before it there is none.
variable (name : Option CommandName)

def valueOption? (named : ValueOption → Bool) : Option ValueOption :=
  ValueOption.all.find? fun option => named option && name.any option.belongsTo

/-- Reads letters that stand together behind one hyphen. What follows the letter of an option
with a value is its value. -/
def readShorts (a : Arguments) : List Char → Except UsageFault Progress
  | [] => .ok (.read a)
  | c :: rest =>
      if c = 'h' then .ok .help
      else if c = 'V' && name.isNone then .ok .version
      else if c = 'v' then
        match a.setVerbose with
        | .ok a => readShorts a rest
        | .error fault => .error fault
      else match valueOption? name (·.short == c) with
        | none => .error (.unexpected (String.ofList ['-', c]))
        | some option =>
            match rest with
            | [] => .ok (.awaiting a option)
            | '=' :: value => (a.setValue option (String.ofList value)).map .read
            | value => (a.setValue option (String.ofList value)).map .read

def readLong (a : Arguments) (word : List Char) : Except UsageFault Progress :=
  let key := String.ofList (word.takeWhile (· ≠ '='))
  let value := (word.dropWhile (· ≠ '=')).tail?.map String.ofList
  match valueOption? name (·.long == key), value with
  | some option, none => .ok (.awaiting a option)
  | some option, some value => (a.setValue option value).map .read
  | none, none =>
      if key = "help" then .ok .help
      else if key = "version" && name.isNone then .ok .version
      else if key = "verbose" then a.setVerbose.map .read
      else if key = "debug" then a.setDebug.map .read
      else .error (.unexpected ("--" ++ key))
  | none, some _ => .error (.unexpected ("--" ++ String.ofList word))

def readOption (a : Arguments) (argument : String) : Except UsageFault Progress :=
  match argument.toList with
  | '-' :: '-' :: word => readLong name a word
  | _ :: letters => readShorts name a letters
  | [] => .error (.unexpected argument)

end

/-- Reads the arguments of a command; nothing comes back if they ask for help. `awaited` is the
option whose value comes next, and `plain` says that `--` came before. -/
def readArguments (name : CommandName) (a : Arguments) (awaited : Option ValueOption)
    (plain : Bool) : List String → Except UsageFault (Option Arguments)
  | [] =>
      match awaited with
      | some option => .error (.noValue ("--" ++ option.long))
      | none => .ok (some a)
  | argument :: rest =>
      match awaited with
      | some option =>
          if isOption argument then .error (.noValue ("--" ++ option.long))
          else match a.setValue option argument with
            | .ok a => readArguments name a none plain rest
            | .error fault => .error fault
      | none =>
          if plain || !isOption argument then
            match a.setInput name argument with
            | .ok a => readArguments name a none plain rest
            | .error fault => .error fault
          else if argument = "--" then readArguments name a none true rest
          else match readOption (some name) a argument with
            | .error fault => .error fault
            | .ok .help | .ok .version => .ok none
            | .ok (.read a) => readArguments name a none plain rest
            | .ok (.awaiting a option) => readArguments name a (some option) plain rest

inductive Command
  | compile (input : String) (config output : Option String)
  | check (input : String) (config : Option String)
  | plugins
deriving DecidableEq, Repr

namespace Command

def ofArguments (name : CommandName) (a : Arguments) : Except UsageFault Command :=
  match name, a.input with
  | .plugins, _ => .ok .plugins
  | _, none => .error .noInput
  | .compile, some input => .ok (.compile input a.config a.output)
  | .check, some input => .ok (.check input a.config)

end Command

inductive HelpTopic
  | program
  | command (name : CommandName)
  | help
deriving DecidableEq, Repr

inductive Request
  | run (command : Command)
  | help (topic : HelpTopic)
  | version
deriving DecidableEq, Repr

namespace Request

def ofHelp : List String → Except UsageFault Request
  | [] => .ok (.help .program)
  | word :: rest =>
      match rest with
      | more :: _ => .error (.unknownCommand more)
      | [] =>
          if word = "help" then .ok (.help .help)
          else match CommandName.all.find? (·.text == word) with
            | some name => .ok (.help (.command name))
            | none => .error (.unknownCommand word)

def ofCommand (name : CommandName) (arguments : List String) : Except UsageFault Request :=
  match readArguments name {} none false arguments with
  | .error fault => .error fault
  | .ok none => .ok (.help (.command name))
  | .ok (some a) => (Command.ofArguments name a).map .run

def ofWords (a : Arguments) : List String → Except UsageFault Request
  | [] => .error .noCommand
  | word :: rest =>
      if word = "--" then .error (.unexpected (rest.headD word))
      else if isOption word then
        match readOption none a word with
        | .error fault => .error fault
        | .ok .help => .ok (.help .program)
        | .ok .version => .ok .version
        | .ok (.read a) => ofWords a rest
        | .ok (.awaiting _ option) => .error (.noValue option.long)
      else if word = "help" then ofHelp rest
      else match CommandName.all.find? (·.text == word) with
        | some name => ofCommand name rest
        | none => .error (.unknownCommand word)

end Request
end CallReplacement
