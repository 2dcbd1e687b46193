import SheetCompiler.CommandLine.Command
import Std.Time.Format
import Std.Time.Zoned

/-!
# The program

Runs a command on the files of the disk.
-/

namespace SheetCompiler.CommandLine.Disk

/-- The error of a failed access. -/
def fileError : IO.Error → FileError
  | .noFileOrDirectory .. => .notFound
  | .alreadyExists .. => .taken
  | .inappropriateType .. => .isDirectory
  | e => .other e.toString

/-- Runs an access to the disk. -/
def attempt {α : Type} (act : IO α) : IO (Except FileError α) := do
  match ← act.toBaseIO with
  | .ok a => return .ok a
  | .error e => return .error (fileError e)

/-- Access to the files of the disk. -/
def access : Files IO where
  read path := attempt (IO.FS.readFile path)
  write path text := attempt (IO.FS.writeFile path text)
  makeDirectory path := attempt (IO.FS.createDirAll path)

/-- The local time. -/
def localTime : IO String := do
  let now ← Std.Time.PlainDateTime.now
  return now.format "uuuu-MM-dd'T'HH:mm:ss.SSSSSS"

end SheetCompiler.CommandLine.Disk

def main (arguments : List String) : IO UInt32 := do
  let time ← SheetCompiler.CommandLine.Disk.localTime
  let output ← SheetCompiler.CommandLine.run SheetCompiler.CommandLine.Disk.access time arguments
  (← IO.getStdout).putStr output.stdout
  (← IO.getStderr).putStr output.stderr
  return output.code.toUInt32
