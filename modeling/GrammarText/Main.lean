import GrammarText.Cli.Run

/-!
The command line program.
-/

open GrammarText

/-- The bytes of a file, if it can be read. -/
def fileBytes? (path : String) : IO (Option ByteArray) :=
  try return some (← IO.FS.readBinFile path) catch _ => return none

def finish (r : Report) : IO UInt32 := do
  (← IO.getStdout).putStr r.out
  (← IO.getStderr).putStr r.err
  return r.code.toUInt32

def main (args : List String) : IO UInt32 := do
  match Command.parse args with
  | none => finish Command.usageError
  | some command =>
    let bytes ← match command.config? with
      | some path => fileBytes? path
      | none => pure none
    match command.run fun _ => bytes with
    | .report r => finish r
    | .writeFile path content done =>
      let written ← try IO.FS.writeFile path content; pure true catch _ => pure false
      finish (if written then done else Command.writeFailure path)
