import CallReplacement.Command.Run

/-!
The program: reads the files that its command line names, runs the command, and writes what
comes of it.
-/

namespace CallReplacement

abbrev Reading := Except FileFault ByteArray

def FileFault.ofError : IO.Error → FileFault
  | .noFileOrDirectory .. => .missing
  | .inappropriateType .. => .directory
  | error => .other (toString error)

def Reading.ofPath (path : String) : IO Reading := do
  try
    return .ok (← IO.FS.readBinFile path)
  catch error =>
    return .error (.ofError error)

def Files.ofReadings (readings : List (String × Reading)) : Files where
  read path :=
    match readings.lookup path with
    | some (.ok bytes) =>
        match String.fromUTF8? bytes with
        | some text => .ok text
        | none => .error .notText
    | some (.error fault) => .error fault
    | none => .error .missing
  isFile path :=
    match readings.lookup path with
    | some (.ok _) | some (.error (.other _)) => true
    | _ => false

def Outcome.tell (outcome : Outcome) : IO UInt32 := do
  IO.print outcome.output
  IO.eprint outcome.errors
  return outcome.code.toUInt32

end CallReplacement

open CallReplacement in
def main (words : List String) : IO UInt32 := do
  let readings ← (Request.reads words).mapM fun path => return (path, ← Reading.ofPath path)
  match Request.runWords (Files.ofReadings readings) words with
  | .done outcome => outcome.tell
  | .writing path text outcome =>
      try
        IO.FS.writeFile path text
      catch _ =>
        return ← (Outcome.unwritten path).tell
      outcome.tell
