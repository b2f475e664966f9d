import Script.Command

/-!
# The program

Reads the files and the lines that the command asks for, and prints what it answers.
-/

namespace Script

/-- Asks for lines and answers them until the dialogue is over. -/
partial def converse (stdin stdout : IO.FS.Stream) (dialogue : Dialogue) : IO Unit := do
  stdout.putStr dialogue.prompt
  stdout.flush
  let line ← stdin.getLine
  let input : Input :=
    if line.isEmpty then .endOfInput else .line (line.dropSuffix "\n").toString
  let (text, after) := dialogue.answer .standard input
  stdout.putStr text
  unless after.ended do converse stdin stdout after

/-- Prints how the command ended and gives its exit status. -/
def conclude : Command.Ending → IO UInt32
  | .finished outcome => do
    IO.print outcome.stdout
    IO.eprint outcome.stderr
    return outcome.status.toUInt32
  | .crashed fault stdout => do
    IO.print stdout
    IO.eprintln fault.message
    return 1

/-- The fault that an error of the system stands for. -/
def fileFault : IO.Error → Command.FileFault
  | .inappropriateType none _ _ => .directory
  | .inappropriateType (some _) _ _ => .notDirectory
  | .invalidArgument _ 22 _ => .nullCharacter
  | .invalidArgument _ _ _ => .longName
  | _ => .missing

/-- What a file holds, if it can be read. -/
def contentsOf (name : String) : IO (Except Command.FileFault ByteArray) := do
  try return .ok (← IO.FS.readBinFile name) catch error => return .error (fileFault error)

end Script

open Script in
def main (arguments : List String) : IO UInt32 := do
  match Command.Request.ofArguments arguments with
  | .help => conclude (.finished Command.helpOutcome)
  | .misuse message => conclude (.finished (Command.misuseOutcome message))
  | .refused message => conclude (.finished (Command.errorOutcome "" message))
  | .text options source => conclude (Command.sourceEnding .standard options source)
  | .file options name =>
    conclude (Command.fileEnding .standard options name (← contentsOf name))
  | .converse verbose => do
    IO.print Dialogue.banner
    converse (← IO.getStdin) (← IO.getStdout) { verbose }
    return 0
