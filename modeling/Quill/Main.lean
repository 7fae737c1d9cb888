import Quill.Command.Run

/-!
# The program

Reads the files that a command line names, runs it, writes what it answers and exits.
-/

namespace Quill

/-- Why the disk gave no text. Some of the system's numbers come with their sign changed, in 32
bits. -/
def faultOfError (e : IO.Error) : Command.ReadFault :=
  match e with
  | .noFileOrDirectory _ n _ | .permissionDenied _ n _ | .inappropriateType _ n _
  | .invalidArgument _ n _ =>
    let number := if n < 0x80000000 then n else 0 - n
    (Command.ReadFault.ofNumber? number.toNat).getD (.other e.toString)
  | e => .other e.toString

/-- The text of a file on the disk, or why there is none. -/
def readDisk (path : String) : IO (Except Command.ReadFault String) := do
  try
    return Command.textOfBytes (← IO.FS.readBinFile path)
  catch e =>
    return .error (faultOfError e)

/-- Whether reports are coloured: as the environment says, or else on a terminal. -/
def wantsColour : IO Bool := do
  match ← IO.getEnv "CLICOLOR_FORCE" with
  | some force => if force ≠ "0" then return true
  | none => pure ()
  if (← IO.getEnv "NO_COLOR").isSome then
    return false
  return (← IO.getEnv "CLICOLOR") ≠ some "0" && (← (← IO.getStdout).isTty)

/-- The files that a command line names. -/
def namedFiles (args : List String) : List String :=
  match Command.Request.ofArguments args with
  | .run job => job.options.config.toList ++ [job.file]
  | _ => []

/-- Runs a command line. -/
def runProgram (args : List String) : IO UInt32 := do
  let texts ← (namedFiles args).mapM fun path => return (path, ← readDisk path)
  let read path := (texts.lookup path).getD (.error .missing)
  let out ← IO.getStdout
  let err ← IO.getStderr
  let answer := Command.run read (← wantsColour) args
  out.putStr answer.out
  err.putStr answer.err
  return answer.exit.toUInt32

end Quill

/-- The program. -/
def main (args : List String) : IO UInt32 :=
  Quill.runProgram args
