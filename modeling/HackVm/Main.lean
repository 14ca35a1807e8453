import HackVm.CommandLine.Standard

/-!
# The program

The thin layer between a run and the operating system: files as a disk, the environment and the
two output streams.
-/
namespace HackVm.Program

/-- The reason the operating system gives for refusing. -/
def faultOf : IO.Error → AccessFault
  | .noFileOrDirectory _ _ _ => .notFound
  | .permissionDenied _ _ _ => .denied
  | .inappropriateType _ code _ => if code = 20 then .notDirectory else .isDirectory
  | .resourceExhausted _ _ _ => .deviceFull
  | .invalidArgument _ 36 _ => .nameTooLong
  | error => .other error.toString

/-- Run an action and turn its error into a fault. -/
def attempt {α : Type} (action : IO α) : IO (Except AccessFault α) := do
  try
    return .ok (← action)
  catch error =>
    return .error (faultOf error)

/-- Do something with the name of a file, which must be text. -/
def named {α : Type} (path : Path) (action : String → IO α) : IO (Except AccessFault α) :=
  match Text.decode? path.bytes with
  | some name => attempt (action name)
  | none => return .error (.other "file name is not text")

/-- The files of the operating system. -/
def systemDisk : Disk IO.FS.Handle IO where
  locate path := named path (IO.FS.Handle.mk · .read)
  contents handle := do
    match ← attempt handle.readBinToEnd with
    | .ok bytes => return [.bytes bytes.toList]
    | .error fault => return [.failure fault]
  create path := named path (IO.FS.Handle.mk · .write)
  append handle bytes := attempt do
    handle.write ⟨bytes.toArray⟩
    handle.flush
  remove path := named path (IO.FS.removeFile ·)

/-- Run the program and show its response. -/
def run (arguments : List String) : IO UInt32 := do
  let environment := CommandLine.standard (← IO.getEnv "TERM") (← IO.getEnv "NO_COLOR")
  let response ← CommandLine.run environment systemDisk (arguments.map Text.encode)
  IO.print response.stdout
  IO.eprint response.stderr
  return response.exitCode.toUInt32

end HackVm.Program

/-- Entry point. -/
def main (arguments : List String) : IO UInt32 := HackVm.Program.run arguments
