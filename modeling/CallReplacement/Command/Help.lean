import CallReplacement.Command.Arguments

/-!
Pages of help. A page says what a command is for, how it is called, and what its parts mean;
the meanings stand in one column.
-/

namespace CallReplacement

abbrev HelpEntry := String × String

namespace HelpTopic

def config : HelpEntry :=
  ("-c, --config <CONFIG>", "Path to graft.toml (defaults to the one next to the input, if any)")

def verbose : HelpEntry := ("-v, --verbose", "Log progress (info level)")

def output : HelpEntry := ("-o, --output <OUTPUT>", "Output file (defaults to stdout)")

def debug : HelpEntry := ("    --debug", "Log every resolution decision (debug level)")

def help? : HelpEntry := ("-h, --help", "Print help")

def version : HelpEntry := ("-V, --version", "Print version")

def input : HelpEntry := ("<INPUT>", "Typed AST produced by the front end")

def commands : List HelpEntry :=
  [("compile", "Compile a typed AST to JavaScript"),
    ("check", "Run the compiler without emitting and report how calls resolve"),
    ("plugins", "List the extensions that can be enabled in graft.toml"),
    ("help", "Print this message or the help of the given subcommand(s)")]

def entryBlock (title : String) (entries : List HelpEntry) : List String :=
  let width := (entries.map (·.1.length)).foldl max 0
  if entries.isEmpty then []
  else
    "" :: (title ++ ":") :: entries.map fun (part, meaning) =>
      "  " ++ part ++ String.ofList (List.replicate (width - part.length) ' ') ++ "  " ++ meaning

def page (about call : String) (arguments commands options : List HelpEntry) : String :=
  let lines := [about, "", "Usage: " ++ call] ++ entryBlock "Arguments" arguments
    ++ entryBlock "Commands" commands ++ entryBlock "Options" options
  String.join (lines.map (· ++ "\n"))

def about (command : String) : String := (List.lookup command commands).getD ""

def text : HelpTopic → String
  | .program =>
      page "Compile typed ASTs to JavaScript with pluggable call replacement"
        "graft [OPTIONS] <COMMAND>" [] commands [verbose, debug, help?, version]
  | .command .compile =>
      page (about "compile") "graft compile [OPTIONS] <INPUT>" [input] []
        [config, verbose, debug, output, help?]
  | .command .check =>
      page (about "check") "graft check [OPTIONS] <INPUT>" [input] []
        [config, verbose, debug, help?]
  | .command .plugins =>
      page (about "plugins") "graft plugins [OPTIONS]" [] [] [verbose, debug, help?]
  | .help =>
      page (about "help") "graft help [COMMAND]..."
        [("[COMMAND]...", "Print help for the subcommand(s)")] [] []

end HelpTopic
end CallReplacement
