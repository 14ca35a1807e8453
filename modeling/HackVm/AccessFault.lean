/-!
# Refused reads and writes

Why a stream or a file could not be read or written, with the wording the user sees.
-/
namespace HackVm

/-- Why a read or a write was refused. -/
inductive AccessFault where
  /-- A part of a path does not exist. -/
  | notFound
  /-- The directory may not be changed. -/
  | denied
  /-- A part of a path that should be a directory is something else. -/
  | notDirectory
  /-- A directory stands where a file is needed. -/
  | isDirectory
  /-- The device has no room left. -/
  | deviceFull
  /-- A path, or one name in it, is too long. -/
  | nameTooLong
  /-- A path holds the byte zero. -/
  | zeroByte
  /-- A line is not UTF-8. -/
  | notText
  /-- Any other reason, in the words of the device. -/
  | other (reason : String)
deriving DecidableEq, Repr

/-- The wording of a fault. -/
def AccessFault.message : AccessFault → String
  | notFound => "No such file or directory (os error 2)"
  | denied => "Permission denied (os error 13)"
  | notDirectory => "Not a directory (os error 20)"
  | isDirectory => "Is a directory (os error 21)"
  | deviceFull => "No space left on device (os error 28)"
  | nameTooLong => "File name too long (os error 36)"
  | zeroByte => "file name contained an unexpected NUL byte"
  | notText => "stream did not contain valid UTF-8"
  | other reason => reason

end HackVm
